/-
The documents that are written for receipts and negotiations.

Each record is written as an object with its fields in the order of their declaration; a field that
may be missing is written as `null`.  What is written conforms to the schema of the record, and is
read back as the record.

Main definitions:

* `TermInterop.ProbeReceiptV1.serialize`, `TermInterop.CapabilityNegotiationV1.serialize` — what is
  written, record by record.

Main results:

* `TermInterop.ProbeReceiptV1.format` — **a receipt conforms to its schema and is read back**;
* `TermInterop.CapabilityNegotiationV1.roundTrip`,
  `TermInterop.CapabilityNegotiationV1.accepts_serialize` — so does a negotiation;
* `TermInterop.ProbeReceiptV1.write_serialize` — the compact JSON of a receipt is that of its
  document.
-/

import TermInterop.JsonFormats
import TermInterop.NegotiationJson

set_option relaxedAutoImplicit false
set_option autoImplicit false

namespace TermInterop

open Json (Document Members Schema RoundTrip Format field optionalField text variant list orNull)

-- objects conform and are read member by member
attribute [local simp] Json.propertiesAccept field optionalField Json.lookup_cons

@[local simp] theorem accepts_string (s : String) : Schema.string.accepts (.string s) = true := rfl

/-! ### Numbers and texts -/

/-- A number with digits alone. -/
def natural (n : ℕ) : Document := .number (.natural n)

theorem unsigned64_format : Format 0 .natural (fun n : UInt64 => natural n.toNat) unsigned64 where
  within n := ⟨n.toNat, n.toNat_lt.trans (by decide), rfl⟩
  conforms n := by simp [natural, Schema.accepts, Json.Numeral.value]
  read_write n := unsigned64_eq_some_iff.2 rfl

theorem unsigned32_format : Format 0 .natural (fun n : UInt32 => natural n.toNat) unsigned32 where
  within n := ⟨n.toNat, n.toNat_lt.trans (by decide), rfl⟩
  conforms n := by simp [natural, Schema.accepts, Json.Numeral.value]
  read_write n := by
    rw [natural, unsigned32, if_pos n.toNat_lt, UInt32.ofNat_toNat]

/-! ### Identities -/

def ProtocolId.serialize (protocol : ProtocolId) : Document :=
  .object [("namespace", .string protocol.«namespace»), ("name", .string protocol.name),
    ("revision", .string protocol.revision)]

theorem ProtocolId.format : Format 1 jsonSchema serialize deserialize where
  within protocol := Json.within_object (by simp)
  conforms protocol := Json.accepts_object (by simp) (by simp) (by simp)
  read_write protocol := by
    rw [serialize, deserialize, Json.struct_object (by simp) (by simp)]
    simp

def CapabilityId.serialize (capability : CapabilityId) : Document :=
  .object [("protocol", capability.protocol.serialize), ("name", .string capability.name)]

theorem CapabilityId.format : Format 2 jsonSchema serialize deserialize where
  within capability := Json.within_object (by simp [ProtocolId.format.within])
  conforms capability :=
    Json.accepts_object (by simp) (by simp) (by simp [ProtocolId.format.conforms])
  read_write capability := by
    rw [serialize, deserialize, Json.struct_object (by simp) (by simp)]
    simp [ProtocolId.format.read_write]

def AdapterIdentity.serialize (adapter : AdapterIdentity) : Document :=
  .object [("name", .string adapter.name), ("version", .string adapter.version)]

theorem AdapterIdentity.format : Format 1 jsonSchema serialize deserialize where
  within adapter := Json.within_object (by simp)
  conforms adapter := Json.accepts_object (by simp) (by simp) (by simp)
  read_write adapter := by
    rw [serialize, deserialize, Json.struct_object (by simp) (by simp)]
    simp

def CorrelationId.serialize (correlation : CorrelationId) : Document :=
  .object [("namespace", .string correlation.«namespace»), ("value", .string correlation.value)]

theorem CorrelationId.format : Format 1 jsonSchema serialize deserialize where
  within correlation := Json.within_object (by simp)
  conforms correlation := Json.accepts_object (by simp) (by simp) (by simp)
  read_write correlation := by
    rw [serialize, deserialize, Json.struct_object (by simp) (by simp)]
    simp

/-! ### The context of a probe -/

def HintObservation.serialize : HintObservation → Document
  | present => .string "present"
  | value text => .object [("value", .string text)]

theorem HintObservation.format : Format 1 jsonSchema serialize deserialize where
  within observation := by
    cases observation with
    | present => exact Json.within_string 1 _
    | value text => exact Json.within_object (by simp)
  conforms observation := by
    cases observation <;> simp [serialize, jsonSchema, Schema.accepts, Json.countAccepting]
  read_write observation := by cases observation <;> simp [serialize, deserialize]

def EnvironmentHint.serialize (hint : EnvironmentHint) : Document :=
  .object [("name", .string hint.name), ("observation", hint.observation.serialize)]

theorem EnvironmentHint.format : Format 2 jsonSchema serialize deserialize where
  within hint := Json.within_object (by simp [HintObservation.format.within])
  conforms hint :=
    Json.accepts_object (by simp) (by simp) (by simp [HintObservation.format.conforms])
  read_write hint := by
    rw [serialize, deserialize, Json.struct_object (by simp) (by simp)]
    simp [HintObservation.format.read_write]

def PathHop.serialize (hop : PathHop) : Document :=
  .object [("role", .string hop.role), ("implementation", .string hop.implementation),
    ("version", orNull .string hop.version)]

theorem PathHop.format : Format 1 jsonSchema serialize deserialize where
  within hop := Json.within_object (by simp [Json.orNull_within Format.text.toRoundTrip])
  conforms hop :=
    Json.accepts_object (by simp) (by simp) (by simp [Json.orNull_conforms Format.text])
  read_write hop := by
    rw [serialize, deserialize, Json.struct_object (by simp) (by simp)]
    simp [Json.nullable_orNull Format.text.toRoundTrip]

def TopologyObservation.serialize : TopologyObservation → Document
  | unknown => .object [("state", .string "unknown")]
  | declared hops =>
      .object [("state", .string "declared"), ("hops", .array (hops.map PathHop.serialize))]

theorem TopologyObservation.format : Format 3 jsonSchema serialize deserialize where
  within topology := by
    cases topology with
    | unknown => exact Json.within_object (by simp)
    | declared hops => exact Json.within_object (by simp [PathHop.format.array.within hops])
  conforms topology := by
    cases topology with
    | unknown => simp [serialize, jsonSchema, Schema.accepts, Json.countAccepting]
    | declared hops =>
        simp [serialize, jsonSchema, Schema.accepts, Json.countAccepting, PathHop.format.conforms]
  read_write topology := by
    cases topology with
    | unknown => simp [serialize, deserialize]
    | declared hops => simp [serialize, deserialize, PathHop.format.array.read_write hops]

theorem TransportReadiness.format :
    Format 0 jsonSchema (fun a => .string a.snakeCase) deserialize :=
  Format.variants snakeCase [notRequired, ready, unknown] (by decide)
    (by rintro (_ | _ | _) <;> simp)

/-! ### The wire exchange -/

theorem WireEventRole.format : Format 0 jsonSchema (fun a => .string a.snakeCase) deserialize :=
  Format.variants snakeCase [capabilityReply, barrierReply, unclassified] (by decide)
    (by rintro (_ | _ | _) <;> simp)

/-- A map is an object whose members are ordered by their names. -/
def fieldsSerialize (fields : Fields) : Document :=
  .object (fields.toList.map fun field => (field.1, .string field.2))

theorem fields_format : Format 1 (.object [] [] .string) fieldsSerialize fieldsDeserialize where
  within fields := by
    intro m hm
    obtain ⟨field, -, rfl⟩ := List.mem_map.1 hm
    trivial
  conforms fields := by
    have hnodup : (fields.toList.map Prod.fst).Nodup := by
      rw [List.Nodup, List.pairwise_map]
      refine List.Pairwise.imp ?_ (Std.ExtTreeMap.distinct_keys_toList (t := fields))
      rintro a b hne heq
      exact hne (heq ▸ Std.ReflCmp.compare_self)
    simpa [fieldsSerialize, Schema.accepts, Function.comp_def] using hnodup
  read_write fields := by
    have hread : (fields.toList.map fun field => (field.1, Document.string field.2)).mapM
        (fun m => (text m.2).map fun value => (m.1, value)) = some fields.toList := by
      induction fields.toList with
      | nil => rfl
      | cons field rest ih =>
          rw [List.map_cons, List.mapM_cons, ih]
          rfl
    rw [fieldsSerialize, fieldsDeserialize, hread]
    refine congrArg some (Std.ExtTreeMap.ext_getElem? fun key => ?_)
    cases hvalue : fields[key]? with
    | some value =>
        exact Std.ExtTreeMap.getElem?_ofList_of_mem Std.ReflCmp.compare_self
          Std.ExtTreeMap.distinct_keys_toList
          (Std.ExtTreeMap.mem_toList_iff_getElem?_eq_some.2 hvalue)
    | none =>
        refine Std.ExtTreeMap.getElem?_ofList_of_contains_eq_false ?_
        rw [Bool.eq_false_iff]
        intro hmem
        obtain ⟨⟨key', value⟩, hfield, rfl⟩ := List.mem_map.1 (List.contains_iff_mem.1 hmem)
        rw [Std.ExtTreeMap.mem_toList_iff_getElem?_eq_some.1 hfield] at hvalue
        cases hvalue

def WireEvent.serialize (event : WireEvent) : Document :=
  .object [("sequence", natural event.sequence.toNat), ("role", .string event.role.snakeCase),
    ("protocol", orNull ProtocolId.serialize event.protocol),
    ("correlation", orNull .string event.correlation), ("status", orNull .string event.status),
    ("fields", fieldsSerialize event.fields), ("raw_base64", .string event.rawBase64)]

theorem WireEvent.format : Format 2 jsonSchema serialize deserialize where
  within event := by
    have hsequence := unsigned32_format.within_of_le (Nat.zero_le 1) event.sequence
    refine Json.within_object ?_
    simp [hsequence, Json.orNull_within Format.text.toRoundTrip,
      Json.orNull_within ProtocolId.format.toRoundTrip, fields_format.within]
  conforms event := by
    have hsequence := unsigned32_format.conforms event.sequence
    have hrole := WireEventRole.format.conforms event.role
    refine Json.accepts_object (by simp) (by simp) ?_
    simp [hsequence, hrole, Json.orNull_conforms Format.text,
      Json.orNull_conforms ProtocolId.format, fields_format.conforms]
  read_write event := by
    have hsequence := unsigned32_format.read_write event.sequence
    have hrole := WireEventRole.format.read_write event.role
    rw [serialize, deserialize, Json.struct_object (by simp) (by simp)]
    simp [hsequence, hrole, Json.nullable_orNull Format.text.toRoundTrip,
      Json.nullable_orNull ProtocolId.format.toRoundTrip (by simp [ProtocolId.serialize]),
      fields_format.read_write]

theorem StopReason.format : Format 0 jsonSchema (fun a => .string a.snakeCase) deserialize :=
  Format.variants snakeCase
    [capabilityAndBarrierObserved, barrierObserved, timeout, resourceLimit, endOfInput] (by decide)
    (by rintro (_ | _ | _ | _ | _) <;> simp)

def WireExchange.serialize (exchange : WireExchange) : Document :=
  .object [("logical_request_base64", .string exchange.logicalRequestBase64),
    ("wire_request_base64", .string exchange.wireRequestBase64),
    ("response_base64", .string exchange.responseBase64),
    ("events", .array (exchange.events.map WireEvent.serialize)),
    ("elapsed_ms", natural exchange.elapsedMs.toNat),
    ("stop_reason", .string exchange.stopReason.snakeCase)]

theorem WireExchange.format : Format 4 jsonSchema serialize deserialize where
  within exchange := by
    have helapsed := unsigned64_format.within_of_le (Nat.zero_le 3) exchange.elapsedMs
    exact Json.within_object (by simp [helapsed, WireEvent.format.array.within exchange.events])
  conforms exchange := by
    have helapsed := unsigned64_format.conforms exchange.elapsedMs
    have hreason := StopReason.format.conforms exchange.stopReason
    have hevents := WireEvent.format.array.conforms exchange.events
    exact Json.accepts_object (by simp) (by simp) (by simp [helapsed, hreason, hevents])
  read_write exchange := by
    have helapsed := unsigned64_format.read_write exchange.elapsedMs
    have hreason := StopReason.format.read_write exchange.stopReason
    have hevents := WireEvent.format.array.read_write exchange.events
    rw [serialize, deserialize, Json.struct_object (by simp) (by simp)]
    simp [helapsed, hreason, hevents]

def TransportEvidence.serialize (transport : TransportEvidence) : Document :=
  .object [("adapter", transport.adapter.serialize),
    ("readiness", .string transport.readiness.snakeCase),
    ("preparation_exchanges", .array (transport.preparationExchanges.map WireExchange.serialize))]

theorem TransportEvidence.format : Format 6 jsonSchema serialize deserialize where
  within transport := by
    have hadapter := AdapterIdentity.format.within_of_le (by decide : 1 ≤ 5) transport.adapter
    have hexchanges := WireExchange.format.array.within transport.preparationExchanges
    exact Json.within_object (by simp [hadapter, hexchanges])
  conforms transport := by
    have hreadiness := TransportReadiness.format.conforms transport.readiness
    have hexchanges := WireExchange.format.array.conforms transport.preparationExchanges
    exact Json.accepts_object (by simp) (by simp)
      (by simp [hreadiness, hexchanges, AdapterIdentity.format.conforms])
  read_write transport := by
    have hreadiness := TransportReadiness.format.read_write transport.readiness
    have hexchanges := WireExchange.format.array.read_write transport.preparationExchanges
    rw [serialize, deserialize, Json.struct_object (by simp) (by simp)]
    simp [hreadiness, hexchanges, AdapterIdentity.format.read_write]

def ProbeContext.serialize (context : ProbeContext) : Document :=
  .object [("tty_endpoint", .string context.ttyEndpoint),
    ("transport", context.transport.serialize),
    ("environment_hints", .array (context.environmentHints.map EnvironmentHint.serialize)),
    ("topology", context.topology.serialize)]

theorem ProbeContext.format : Format 7 jsonSchema serialize deserialize where
  within context := by
    have htopology := TopologyObservation.format.within_of_le (by decide : 3 ≤ 6) context.topology
    have hhints := EnvironmentHint.format.array.within_of_le (by decide : 3 ≤ 6)
      context.environmentHints
    exact Json.within_object (by simp [htopology, hhints, TransportEvidence.format.within])
  conforms context := by
    have hhints := EnvironmentHint.format.array.conforms context.environmentHints
    exact Json.accepts_object (by simp) (by simp)
      (by simp [hhints, TransportEvidence.format.conforms, TopologyObservation.format.conforms])
  read_write context := by
    have hhints := EnvironmentHint.format.array.read_write context.environmentHints
    rw [serialize, deserialize, Json.struct_object (by simp) (by simp)]
    simp [hhints, TransportEvidence.format.read_write, TopologyObservation.format.read_write]

/-! ### The receipt -/

theorem Availability.format : Format 0 jsonSchema (fun a => .string a.snakeCase) deserialize :=
  Format.variants snakeCase [available, unavailable, unknown] (by decide)
    (by rintro (_ | _ | _) <;> simp)

theorem Conformance.format : Format 0 jsonSchema (fun a => .string a.snakeCase) deserialize :=
  Format.variants snakeCase [conformant, nonconformant, notApplicable, inconclusive] (by decide)
    (by rintro (_ | _ | _ | _) <;> simp)

theorem AssertionOutcome.format : Format 0 jsonSchema (fun a => .string a.snakeCase) deserialize :=
  Format.variants snakeCase [pass, fail, unknown, notApplicable] (by decide)
    (by rintro (_ | _ | _ | _) <;> simp)

def AssertionResult.serialize (assertion : AssertionResult) : Document :=
  .object [("id", .string assertion.id), ("outcome", .string assertion.outcome.snakeCase),
    ("detail", .string assertion.detail)]

theorem AssertionResult.format : Format 1 jsonSchema serialize deserialize where
  within assertion := Json.within_object (by simp)
  conforms assertion := by
    have houtcome := AssertionOutcome.format.conforms assertion.outcome
    exact Json.accepts_object (by simp) (by simp) (by simp [houtcome])
  read_write assertion := by
    have houtcome := AssertionOutcome.format.read_write assertion.outcome
    rw [serialize, deserialize, Json.struct_object (by simp) (by simp)]
    simp [houtcome]

def Assessment.serialize (assessment : Assessment) : Document :=
  .object [("availability", .string assessment.availability.snakeCase),
    ("conformance", .string assessment.conformance.snakeCase),
    ("assertions", .array (assessment.assertions.map AssertionResult.serialize))]

theorem Assessment.format : Format 3 jsonSchema serialize deserialize where
  within assessment := by
    have hassertions := AssertionResult.format.array.within assessment.assertions
    exact Json.within_object (by simp [hassertions])
  conforms assessment := by
    have havailability := Availability.format.conforms assessment.availability
    have hconformance := Conformance.format.conforms assessment.conformance
    have hassertions := AssertionResult.format.array.conforms assessment.assertions
    exact Json.accepts_object (by simp) (by simp)
      (by simp [havailability, hconformance, hassertions])
  read_write assessment := by
    have havailability := Availability.format.read_write assessment.availability
    have hconformance := Conformance.format.read_write assessment.conformance
    have hassertions := AssertionResult.format.array.read_write assessment.assertions
    rw [serialize, deserialize, Json.struct_object (by simp) (by simp)]
    simp [havailability, hconformance, hassertions]

def ProbeReceiptV1.serialize (receipt : ProbeReceiptV1) : Document :=
  .object [("schema", .string receipt.schema),
    ("observed_at_unix_ms", natural receipt.observedAtUnixMs.toNat),
    ("capability", receipt.capability.serialize), ("adapter", receipt.adapter.serialize),
    ("correlation", orNull CorrelationId.serialize receipt.correlation),
    ("context", receipt.context.serialize), ("exchange", receipt.exchange.serialize),
    ("assessment", receipt.assessment.serialize)]

/-- **A receipt conforms to its schema and is read back.** -/
theorem ProbeReceiptV1.format : Format 8 jsonSchema serialize deserialize where
  within receipt := by
    have hobserved := unsigned64_format.within_of_le (Nat.zero_le 7) receipt.observedAtUnixMs
    have hcapability := CapabilityId.format.within_of_le (by decide : 2 ≤ 7) receipt.capability
    have hadapter := AdapterIdentity.format.within_of_le (by decide : 1 ≤ 7) receipt.adapter
    have hcorrelation := Json.orNull_within CorrelationId.format.toRoundTrip (by decide : 1 ≤ 7)
      receipt.correlation
    have hexchange := WireExchange.format.within_of_le (by decide : 4 ≤ 7) receipt.exchange
    have hassessment := Assessment.format.within_of_le (by decide : 3 ≤ 7) receipt.assessment
    refine Json.within_object ?_
    simp [hobserved, hcapability, hadapter, hcorrelation, hexchange, hassessment,
      ProbeContext.format.within]
  conforms receipt := by
    have hobserved := unsigned64_format.conforms receipt.observedAtUnixMs
    have hcorrelation := Json.orNull_conforms CorrelationId.format receipt.correlation
    refine Json.accepts_object (by simp) (by simp) ?_
    simp [hobserved, hcorrelation, CapabilityId.format.conforms, AdapterIdentity.format.conforms,
      ProbeContext.format.conforms, WireExchange.format.conforms, Assessment.format.conforms]
  read_write receipt := by
    have hobserved := unsigned64_format.read_write receipt.observedAtUnixMs
    have hcorrelation :=
      Json.nullable_orNull CorrelationId.format.toRoundTrip (by simp [CorrelationId.serialize])
      receipt.correlation
    rw [serialize, deserialize, Json.struct_object (by simp) (by simp)]
    simp [hobserved, hcorrelation, CapabilityId.format.read_write,
      AdapterIdentity.format.read_write, ProbeContext.format.read_write,
      WireExchange.format.read_write, Assessment.format.read_write]

/-! ### The negotiation -/

theorem CandidateDisposition.format :
    Format 0 jsonSchema (fun a => .string a.snakeCase) deserialize :=
  Format.variants snakeCase [eligible, ineligible] (by decide) (by rintro (_ | _) <;> simp)

def NegotiationCandidateV1.serialize (candidate : NegotiationCandidateV1) : Document :=
  .object [("preference", natural candidate.preference.toNat),
    ("disposition", .string candidate.disposition.snakeCase),
    ("receipt", candidate.receipt.serialize)]

theorem NegotiationCandidateV1.format : Format 9 jsonSchema serialize deserialize where
  within candidate := by
    have hpreference := unsigned64_format.within_of_le (Nat.zero_le 8) candidate.preference
    exact Json.within_object (by simp [hpreference, ProbeReceiptV1.format.within])
  conforms candidate := by
    have hpreference := unsigned64_format.conforms candidate.preference
    have hdisposition := CandidateDisposition.format.conforms candidate.disposition
    exact Json.accepts_object (by simp) (by simp)
      (by simp [hpreference, hdisposition, ProbeReceiptV1.format.conforms])
  read_write candidate := by
    have hpreference := unsigned64_format.read_write candidate.preference
    have hdisposition := CandidateDisposition.format.read_write candidate.disposition
    rw [serialize, deserialize, Json.struct_object (by simp) (by simp)]
    simp [hpreference, hdisposition, ProbeReceiptV1.format.read_write]

def NegotiationSelectionV1.serialize : NegotiationSelectionV1 → Document
  | selected preference capability adapter =>
      .object [("state", .string "selected"), ("preference", natural preference.toNat),
        ("capability", capability.serialize), ("adapter", adapter.serialize)]
  | noEligibleCandidate => .object [("state", .string "no_eligible_candidate")]

theorem NegotiationSelectionV1.format : Format 3 jsonSchema serialize deserialize where
  within selection := by
    cases selection with
    | selected preference capability adapter =>
        have hpreference := unsigned64_format.within_of_le (Nat.zero_le 2) preference
        have hadapter := AdapterIdentity.format.within_of_le (by decide : 1 ≤ 2) adapter
        exact Json.within_object (by simp [hpreference, hadapter, CapabilityId.format.within])
    | noEligibleCandidate => exact Json.within_object (by simp)
  conforms selection := by
    cases selection with
    | selected preference capability adapter =>
        have hpreference := unsigned64_format.conforms preference
        simp [serialize, jsonSchema, Schema.accepts, Json.countAccepting, hpreference,
          CapabilityId.format.conforms, AdapterIdentity.format.conforms]
    | noEligibleCandidate => simp [serialize, jsonSchema, Schema.accepts, Json.countAccepting]
  read_write selection := by
    cases selection with
    | selected preference capability adapter =>
        have hpreference := unsigned64_format.read_write preference
        simp [serialize, deserialize, hpreference, CapabilityId.format.read_write,
          AdapterIdentity.format.read_write]
    | noEligibleCandidate => simp [serialize, deserialize]

def CapabilityNegotiationV1.serialize (n : CapabilityNegotiationV1) : Document :=
  .object [("schema", .string n.schema),
    ("candidates", .array (n.candidates.map NegotiationCandidateV1.serialize)),
    ("selection", n.selection.serialize)]

/-- **A negotiation is read back** as it was written, before it is validated. -/
theorem CapabilityNegotiationV1.roundTrip :
    RoundTrip 11 serialize CapabilityNegotiationWireV1.deserialize where
  within n := by
    have hcandidates := NegotiationCandidateV1.format.array.within n.candidates
    have hselection := NegotiationSelectionV1.format.within_of_le (by decide : 3 ≤ 10) n.selection
    exact Json.within_object (by simp [hcandidates, hselection])
  read_write n := by
    have hcandidates := NegotiationCandidateV1.format.array.read_write n.candidates
    rw [serialize, CapabilityNegotiationWireV1.deserialize, Json.struct_object (by simp) (by simp)]
    simp [hcandidates, NegotiationSelectionV1.format.read_write]

/-- **A negotiation of its schema conforms.** -/
theorem CapabilityNegotiationV1.accepts_serialize {n : CapabilityNegotiationV1}
    (h : n.schema = CAPABILITY_NEGOTIATION_SCHEMA_V1) :
    CapabilityNegotiationV1.jsonSchema.accepts n.serialize = true := by
  have hcandidates := NegotiationCandidateV1.format.array.conforms n.candidates
  have hschema :
      (Schema.const CAPABILITY_NEGOTIATION_SCHEMA_V1).accepts (.string n.schema) = true :=
    decide_eq_true h
  refine Json.accepts_object (by simp) (by simp) ?_
  simp [hcandidates, hschema, NegotiationSelectionV1.format.conforms]

/-! ### Compact JSON -/

section Compact

variable (float : ℚ → Bytes)

attribute [local simp] Json.write_object_compact Json.write_array_compact Json.write_string

@[local simp] theorem write_natural (n : ℕ) :
    Json.write float none (natural n) = Json.number n := rfl

theorem write_orNull {α : Type} {serialize : α → Document} {toVec : α → Bytes}
    (h : ∀ a, Json.write float none (serialize a) = toVec a) (value : Option α) :
    Json.write float none (orNull serialize value) = optionalVec toVec value := by
  cases value with
  | none => rfl
  | some a => exact h a

@[local simp] theorem write_orNull_string (value : Option String) :
    Json.write float none (orNull .string value) = Json.optionalString value := by
  cases value <;> rfl

/-- What is written for an array of records. -/
theorem map_write {α : Type} {serialize : α → Document} {toVec : α → Bytes}
    (h : ∀ a, Json.write float none (serialize a) = toVec a) (as : List α) :
    (as.map serialize).map (Json.write float none) = as.map toVec := by
  rw [List.map_map]
  exact List.map_congr_left fun a _ => h a

theorem ProtocolId.write_serialize (protocol : ProtocolId) :
    Json.write float none protocol.serialize = protocol.toVec := by
  simp [serialize, toVec]

theorem CapabilityId.write_serialize (capability : CapabilityId) :
    Json.write float none capability.serialize = capability.toVec := by
  simp [serialize, toVec, ProtocolId.write_serialize]

theorem AdapterIdentity.write_serialize (adapter : AdapterIdentity) :
    Json.write float none adapter.serialize = adapter.toVec := by
  simp [serialize, toVec]

theorem CorrelationId.write_serialize (correlation : CorrelationId) :
    Json.write float none correlation.serialize = correlation.toVec := by
  simp [serialize, toVec]

theorem HintObservation.write_serialize (observation : HintObservation) :
    Json.write float none observation.serialize = observation.toVec := by
  cases observation <;> simp [serialize, toVec]

theorem EnvironmentHint.write_serialize (hint : EnvironmentHint) :
    Json.write float none hint.serialize = hint.toVec := by
  simp [serialize, toVec, HintObservation.write_serialize]

theorem PathHop.write_serialize (hop : PathHop) :
    Json.write float none hop.serialize = hop.toVec := by
  simp [serialize, toVec]

theorem TopologyObservation.write_serialize (topology : TopologyObservation) :
    Json.write float none topology.serialize = topology.toVec := by
  cases topology with
  | unknown => simp [serialize, toVec]
  | declared hops =>
      have hhops := map_write float (PathHop.write_serialize float) hops
      simp only [serialize, toVec, Json.write_object_compact, List.map_cons, List.map_nil,
        Json.write_string, Json.write_array_compact, hhops]

theorem WireEvent.write_serialize (event : WireEvent) :
    Json.write float none event.serialize = event.toVec := by
  have hprotocol := write_orNull float (ProtocolId.write_serialize float) event.protocol
  simp [serialize, toVec, hprotocol, fieldsSerialize, fieldsToVec, Function.comp_def]

theorem WireExchange.write_serialize (exchange : WireExchange) :
    Json.write float none exchange.serialize = exchange.toVec := by
  have hevents := map_write float (WireEvent.write_serialize float) exchange.events
  simp only [serialize, toVec, Json.write_object_compact, List.map_cons, List.map_nil,
    Json.write_string, write_natural, Json.write_array_compact, hevents]

theorem TransportEvidence.write_serialize (transport : TransportEvidence) :
    Json.write float none transport.serialize = transport.toVec := by
  have hexchanges :=
    map_write float (WireExchange.write_serialize float) transport.preparationExchanges
  simp only [serialize, toVec, Json.write_object_compact, List.map_cons, List.map_nil,
    Json.write_string, Json.write_array_compact, AdapterIdentity.write_serialize, hexchanges]

theorem ProbeContext.write_serialize (context : ProbeContext) :
    Json.write float none context.serialize = context.toVec := by
  have hhints := map_write float (EnvironmentHint.write_serialize float) context.environmentHints
  simp only [serialize, toVec, Json.write_object_compact, List.map_cons, List.map_nil,
    Json.write_string, Json.write_array_compact, TransportEvidence.write_serialize,
    TopologyObservation.write_serialize, hhints]

theorem AssertionResult.write_serialize (assertion : AssertionResult) :
    Json.write float none assertion.serialize = assertion.toVec := by
  simp [serialize, toVec]

theorem Assessment.write_serialize (assessment : Assessment) :
    Json.write float none assessment.serialize = assessment.toVec := by
  have hassertions := map_write float (AssertionResult.write_serialize float) assessment.assertions
  simp only [serialize, toVec, Json.write_object_compact, List.map_cons, List.map_nil,
    Json.write_string, Json.write_array_compact, hassertions]

/-- **The compact JSON of a receipt** is that of its document. -/
theorem ProbeReceiptV1.write_serialize (receipt : ProbeReceiptV1) :
    Json.write float none receipt.serialize = receipt.toVec := by
  have hcorrelation := write_orNull float (CorrelationId.write_serialize float) receipt.correlation
  simp only [serialize, toVec, Json.write_object_compact, List.map_cons, List.map_nil,
    Json.write_string, write_natural, CapabilityId.write_serialize, AdapterIdentity.write_serialize,
    hcorrelation, ProbeContext.write_serialize, WireExchange.write_serialize,
    Assessment.write_serialize]

end Compact

end TermInterop
