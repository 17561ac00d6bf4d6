/-
The JSON of a probe receipt, and how long it is.

A receipt is written as compact JSON, record by record and in the order of the fields.  What is
written for a record takes a fixed number of bytes for the names, and the bytes of the values; so
the length of a receipt is a sum over its texts, its numbers and its events.

A validator reads a document up to a limit, and rejects what is longer.

Main definitions:

* `TermInterop.ProbeReceiptV1.toVec` — the JSON of a receipt;
* `TermInterop.readContractDocument` — reading a document up to the limit.

Main results:

* `TermInterop.WireEvent.length_toVec_le`, `TermInterop.Assessment.length_toVec_le`,
  `TermInterop.ProbeReceiptV1.length_toVec` — how long the JSON of these records is;
* `TermInterop.sum_collectFields_le` — the fields of an event take no more than what they were
  collected from.
-/

import TermInterop.Callback
import TermInterop.Probe

set_option relaxedAutoImplicit false
set_option autoImplicit false

namespace TermInterop

/-! ### The JSON of the records -/

def ProtocolId.toVec (protocol : ProtocolId) : Bytes :=
  Json.object
    [("namespace", Json.string protocol.«namespace»), ("name", Json.string protocol.name),
      ("revision", Json.string protocol.revision)]

def CapabilityId.toVec (capability : CapabilityId) : Bytes :=
  Json.object [("protocol", capability.protocol.toVec), ("name", Json.string capability.name)]

def AdapterIdentity.toVec (adapter : AdapterIdentity) : Bytes :=
  Json.object [("name", Json.string adapter.name), ("version", Json.string adapter.version)]

def CorrelationId.toVec (correlation : CorrelationId) : Bytes :=
  Json.object
    [("namespace", Json.string correlation.«namespace»), ("value", Json.string correlation.value)]

def HintObservation.toVec : HintObservation → Bytes
  | present => Json.string "present"
  | value text => Json.object [("value", Json.string text)]

def EnvironmentHint.toVec (hint : EnvironmentHint) : Bytes :=
  Json.object [("name", Json.string hint.name), ("observation", hint.observation.toVec)]

def PathHop.toVec (hop : PathHop) : Bytes :=
  Json.object
    [("role", Json.string hop.role), ("implementation", Json.string hop.implementation),
      ("version", Json.optionalString hop.version)]

/-- An internally tagged enumeration: the state is a member beside those of the variant. -/
def TopologyObservation.toVec : TopologyObservation → Bytes
  | unknown => Json.object [("state", Json.string "unknown")]
  | declared hops =>
      Json.object [("state", Json.string "declared"), ("hops", Json.array (hops.map PathHop.toVec))]

/-- `serde(rename_all = "snake_case")`. -/
def TransportReadiness.snakeCase : TransportReadiness → String
  | notRequired => "not_required"
  | ready => "ready"
  | unknown => "unknown"

def WireEventRole.snakeCase : WireEventRole → String
  | capabilityReply => "capability_reply"
  | barrierReply => "barrier_reply"
  | unclassified => "unclassified"

def StopReason.snakeCase : StopReason → String
  | capabilityAndBarrierObserved => "capability_and_barrier_observed"
  | barrierObserved => "barrier_observed"
  | timeout => "timeout"
  | resourceLimit => "resource_limit"
  | endOfInput => "end_of_input"

def Availability.snakeCase : Availability → String
  | available => "available"
  | unavailable => "unavailable"
  | unknown => "unknown"

def Conformance.snakeCase : Conformance → String
  | conformant => "conformant"
  | nonconformant => "nonconformant"
  | notApplicable => "not_applicable"
  | inconclusive => "inconclusive"

def AssertionOutcome.snakeCase : AssertionOutcome → String
  | pass => "pass"
  | fail => "fail"
  | unknown => "unknown"
  | notApplicable => "not_applicable"

/-- A record that may be missing. -/
def optionalVec {α : Type} (toVec : α → Bytes) : Option α → Bytes
  | none => Json.null
  | some value => toVec value

/-- A map is an object whose members are ordered by their names. -/
def fieldsToVec (fields : Fields) : Bytes :=
  Json.object (fields.toList.map fun field => (field.1, Json.string field.2))

def WireEvent.toVec (event : WireEvent) : Bytes :=
  Json.object
    [("sequence", Json.number event.sequence.toNat), ("role", Json.string event.role.snakeCase),
      ("protocol", optionalVec ProtocolId.toVec event.protocol),
      ("correlation", Json.optionalString event.correlation),
      ("status", Json.optionalString event.status), ("fields", fieldsToVec event.fields),
      ("raw_base64", Json.string event.rawBase64)]

def WireExchange.toVec (exchange : WireExchange) : Bytes :=
  Json.object
    [("logical_request_base64", Json.string exchange.logicalRequestBase64),
      ("wire_request_base64", Json.string exchange.wireRequestBase64),
      ("response_base64", Json.string exchange.responseBase64),
      ("events", Json.array (exchange.events.map WireEvent.toVec)),
      ("elapsed_ms", Json.number exchange.elapsedMs.toNat),
      ("stop_reason", Json.string exchange.stopReason.snakeCase)]

def TransportEvidence.toVec (transport : TransportEvidence) : Bytes :=
  Json.object
    [("adapter", transport.adapter.toVec), ("readiness", Json.string transport.readiness.snakeCase),
      ("preparation_exchanges",
        Json.array (transport.preparationExchanges.map WireExchange.toVec))]

def ProbeContext.toVec (context : ProbeContext) : Bytes :=
  Json.object
    [("tty_endpoint", Json.string context.ttyEndpoint), ("transport", context.transport.toVec),
      ("environment_hints", Json.array (context.environmentHints.map EnvironmentHint.toVec)),
      ("topology", context.topology.toVec)]

def AssertionResult.toVec (assertion : AssertionResult) : Bytes :=
  Json.object
    [("id", Json.string assertion.id), ("outcome", Json.string assertion.outcome.snakeCase),
      ("detail", Json.string assertion.detail)]

def Assessment.toVec (assessment : Assessment) : Bytes :=
  Json.object
    [("availability", Json.string assessment.availability.snakeCase),
      ("conformance", Json.string assessment.conformance.snakeCase),
      ("assertions", Json.array (assessment.assertions.map AssertionResult.toVec))]

/-- **`serde_json::to_vec` on a receipt.** -/
def ProbeReceiptV1.toVec (receipt : ProbeReceiptV1) : Bytes :=
  Json.object
    [("schema", Json.string receipt.schema),
      ("observed_at_unix_ms", Json.number receipt.observedAtUnixMs.toNat),
      ("capability", receipt.capability.toVec), ("adapter", receipt.adapter.toVec),
      ("correlation", optionalVec CorrelationId.toVec receipt.correlation),
      ("context", receipt.context.toVec), ("exchange", receipt.exchange.toVec),
      ("assessment", receipt.assessment.toVec)]

/-! ### Reading a document -/

def MAX_CONTRACT_DOCUMENT_BYTES : ℕ := 1024 * 1024

/-- **A document is read up to its limit**; one that is longer is rejected. -/
def readContractDocument (file : Bytes) : Option Bytes :=
  let bytes := file.take (MAX_CONTRACT_DOCUMENT_BYTES + 1)
  if MAX_CONTRACT_DOCUMENT_BYTES < bytes.length then none else some bytes

/-- A document is read as a whole when it is within the limit. -/
theorem readContractDocument_eq_some_iff {file bytes : Bytes} :
    readContractDocument file = some bytes ↔
      bytes = file ∧ file.length ≤ MAX_CONTRACT_DOCUMENT_BYTES := by
  simp only [readContractDocument, List.length_take]
  split_ifs with hlong
  · constructor
    · intro h
      cases h
    · rintro ⟨-, hshort⟩
      omega
  · have hwhole : file.take (MAX_CONTRACT_DOCUMENT_BYTES + 1) = file :=
      List.take_of_length_le (by omega)
    rw [hwhole, Option.some_inj, eq_comm]
    exact ⟨fun h => ⟨h, by omega⟩, fun h => h.1⟩

/-! ### Lengths of texts -/

/-- Text that was decoded takes at most six bytes for every byte it was decoded from. -/
theorem escapedLength_decode_le (bytes : Bytes) :
    Json.escapedLength (String.ofList (Utf8Lossy.decode bytes)) ≤ 6 * bytes.length := by
  have hchars := Json.escapedLength_le_chars (String.ofList (Utf8Lossy.decode bytes))
  rw [String.toList_ofList] at hchars
  exact hchars.trans (Nat.mul_le_mul_left 6 (Utf8Lossy.length_decode_le bytes))

/-- Nothing in standard Base64 is escaped. -/
theorem escapedLength_encode (bytes : Bytes) :
    Json.escapedLength (Base64.standard.encode bytes) = 4 * ((bytes.length + 2) / 3) := by
  have hdigit : ∀ v : Fin 64, Json.IsPlainChar (Base64.standardAlphabet.digit v) := by
    decide +kernel
  have hpad : Json.IsPlainChar Base64.padChar := by decide
  have hencode : (Base64.standard.encode bytes).toList =
      Base64.encodeWith Base64.standardAlphabet true bytes := by
    simp [Base64.standard, Base64.encodeString]
  rw [Json.escapedLength_of_plainChars, hencode, Base64.length_encodeWith_padded]
  intro c hc
  rw [hencode] at hc
  obtain ⟨v, rfl⟩ | ⟨-, rfl⟩ := Base64.mem_encodeWith hc
  · exact hdigit v
  · exact hpad

/-- A printed number is copied. -/
theorem escapedLength_repr_le {n k : ℕ} (hk : 0 < k) (h : n < 10 ^ k) :
    Json.escapedLength (Nat.repr n) ≤ k := by
  rw [Json.escapedLength_of_plainChars fun c hc =>
    Json.isPlainChar_of_isDigit (Text.isDigit_of_mem_repr hc), Nat.toList_repr]
  exact (Nat.length_toDigits_le_iff (by decide) hk).2 h

/-- A number within `u32`. -/
theorem length_number_u32_le (n : UInt32) : (Json.number n.toNat).length ≤ 10 :=
  Json.length_number_le (by decide) (Nat.lt_of_lt_of_le n.toNat_lt (by decide))

/-- A number within `u64`. -/
theorem length_number_u64_le (n : UInt64) : (Json.number n.toNat).length ≤ 20 :=
  Json.length_number_le (by decide) (Nat.lt_of_lt_of_le n.toNat_lt (by decide))

/-! ### Lengths of maps -/

/-- **The fields of an event take no more than what they were collected from.** -/
theorem sum_collectFields_le (weight : String × String → ℕ) (pairs : List (String × String)) :
    ((Kgp.collectFields pairs).toList.map weight).sum ≤ (pairs.map weight).sum := by
  have hnodup : (Kgp.collectFields pairs).toList.Nodup := by
    refine List.Pairwise.imp ?_ (Std.ExtTreeMap.distinct_keys_toList (t := Kgp.collectFields pairs))
    rintro a b hne rfl
    exact hne Std.ReflCmp.compare_self
  have hsubset : (Kgp.collectFields pairs).toList ⊆ pairs := by
    rintro ⟨key, value⟩ hmem
    have hlast := Std.ExtTreeMap.mem_toList_iff_getElem?_eq_some.1 hmem
    rw [Kgp.getElem?_collectFields, Option.map_eq_some_iff] at hlast
    obtain ⟨⟨key', value'⟩, hpair, rfl⟩ := hlast
    obtain ⟨hmember, hkey⟩ := List.mem_filter.1 (List.mem_of_getLast? hpair)
    obtain rfl : key' = key := by simpa using hkey
    exact hmember
  obtain ⟨kept, hperm, hsub⟩ := hnodup.subperm hsubset
  rw [← (hperm.map weight).sum_eq]
  exact (hsub.map weight).sum_le_sum fun _ _ => Nat.zero_le _

/-- The JSON of collected fields. -/
theorem length_fieldsToVec_le (pairs : List (String × String)) :
    (fieldsToVec (Kgp.collectFields pairs)).length ≤
      (pairs.map fun field =>
        Json.escapedLength field.1 + Json.escapedLength field.2 + 6).sum + 2 :=
  (Json.length_object_string_le _).trans (Nat.add_le_add_right (sum_collectFields_le _ pairs) 2)

/-! ### Lengths of records -/

theorem WireEvent.length_toVec (event : WireEvent) :
    event.toVec.length = 82 + (Json.number event.sequence.toNat).length +
      (Json.string event.role.snakeCase).length +
      (optionalVec ProtocolId.toVec event.protocol).length +
      (Json.optionalString event.correlation).length + (Json.optionalString event.status).length +
      (fieldsToVec event.fields).length + (Json.string event.rawBase64).length := by
  have hframe : Json.frame ["sequence", "role", "protocol", "correlation", "status", "fields",
      "raw_base64"] = 82 := by rfl
  rw [WireEvent.toVec, Json.length_object]
  simp only [List.map_cons, List.map_nil, List.sum_cons, List.sum_nil, hframe]
  omega

theorem WireExchange.length_toVec (exchange : WireExchange) :
    exchange.toVec.length = 108 + (Json.string exchange.logicalRequestBase64).length +
      (Json.string exchange.wireRequestBase64).length +
      (Json.string exchange.responseBase64).length +
      (Json.array (exchange.events.map WireEvent.toVec)).length +
      (Json.number exchange.elapsedMs.toNat).length +
      (Json.string exchange.stopReason.snakeCase).length := by
  have hframe : Json.frame ["logical_request_base64", "wire_request_base64", "response_base64",
      "events", "elapsed_ms", "stop_reason"] = 108 := by rfl
  rw [WireExchange.toVec, Json.length_object]
  simp only [List.map_cons, List.map_nil, List.sum_cons, List.sum_nil, hframe]
  omega

theorem AssertionResult.length_toVec (assertion : AssertionResult) :
    assertion.toVec.length = 28 + (Json.string assertion.id).length +
      (Json.string assertion.outcome.snakeCase).length + (Json.string assertion.detail).length := by
  have hframe : Json.frame ["id", "outcome", "detail"] = 28 := by rfl
  rw [AssertionResult.toVec, Json.length_object]
  simp only [List.map_cons, List.map_nil, List.sum_cons, List.sum_nil, hframe]
  omega

theorem ProbeContext.length_toVec (context : ProbeContext) :
    context.toVec.length = 63 + (Json.string context.ttyEndpoint).length +
      context.transport.toVec.length +
      (Json.array (context.environmentHints.map EnvironmentHint.toVec)).length +
      context.topology.toVec.length := by
  have hframe : Json.frame ["tty_endpoint", "transport", "environment_hints", "topology"] = 63 := by
    rfl
  rw [ProbeContext.toVec, Json.length_object]
  simp only [List.map_cons, List.map_nil, List.sum_cons, List.sum_nil, hframe]
  omega

theorem ProbeReceiptV1.length_toVec (receipt : ProbeReceiptV1) :
    receipt.toVec.length = 111 + (Json.string receipt.schema).length +
      (Json.number receipt.observedAtUnixMs.toNat).length + receipt.capability.toVec.length +
      receipt.adapter.toVec.length + (optionalVec CorrelationId.toVec receipt.correlation).length +
      receipt.context.toVec.length + receipt.exchange.toVec.length +
      receipt.assessment.toVec.length := by
  have hframe : Json.frame ["schema", "observed_at_unix_ms", "capability", "adapter", "correlation",
      "context", "exchange", "assessment"] = 111 := by rfl
  rw [ProbeReceiptV1.toVec, Json.length_object]
  simp only [List.map_cons, List.map_nil, List.sum_cons, List.sum_nil, hframe]
  omega

/-- An assertion, by its identifier and its detail. -/
theorem AssertionResult.length_toVec_le (assertion : AssertionResult) :
    assertion.toVec.length ≤
      48 + Json.escapedLength assertion.id + Json.escapedLength assertion.detail := by
  have houtcome : (Json.string assertion.outcome.snakeCase).length ≤ 16 := by
    cases assertion.outcome <;> decide
  rw [AssertionResult.length_toVec, Json.length_string assertion.id,
    Json.length_string assertion.detail]
  omega

/-- **An assessment, by its assertions.** -/
theorem Assessment.length_toVec_le (assessment : Assessment) :
    assessment.toVec.length ≤ 80 + (assessment.assertions.map fun assertion =>
      49 + Json.escapedLength assertion.id + Json.escapedLength assertion.detail).sum := by
  have hframe : Json.frame ["availability", "conformance", "assertions"] = 46 := by rfl
  have havailability : (Json.string assessment.availability.snakeCase).length ≤ 13 := by
    cases assessment.availability <;> decide
  have hconformance : (Json.string assessment.conformance.snakeCase).length ≤ 16 := by
    cases assessment.conformance <;> decide
  have hsum : ((assessment.assertions.map AssertionResult.toVec).map List.length).sum +
      assessment.assertions.length ≤ (assessment.assertions.map fun assertion =>
        49 + Json.escapedLength assertion.id + Json.escapedLength assertion.detail).sum := by
    induction assessment.assertions with
    | nil => exact le_refl _
    | cons assertion assertions ih =>
        have hassertion := assertion.length_toVec_le
        simp only [List.map_cons, List.sum_cons, List.length_cons] at ih ⊢
        omega
  have harray := Json.length_array_le (assessment.assertions.map AssertionResult.toVec)
  rw [List.length_map] at harray
  rw [Assessment.toVec, Json.length_object]
  simp only [List.map_cons, List.map_nil, List.sum_cons, List.sum_nil, hframe]
  omega

/-- **An exchange, by its requests, its response and its events.** -/
theorem length_wireExchange_le {logicalRequest wireRequest : Bytes} {live : LiveExchange}
    {events : List WireEvent} :
    (wireExchange Base64.standard logicalRequest wireRequest live events).toVec.length ≤
      169 + 4 * ((logicalRequest.length + 2) / 3) + 4 * ((wireRequest.length + 2) / 3) +
        4 * ((live.response.length + 2) / 3) +
        (events.map fun event => event.toVec.length + 1).sum := by
  have hsum : ((events.map WireEvent.toVec).map List.length).sum + events.length =
      (events.map fun event => event.toVec.length + 1).sum := by
    induction events with
    | nil => rfl
    | cons event events ih =>
        simp only [List.map_cons, List.sum_cons, List.length_cons] at ih ⊢
        omega
  have harray := Json.length_array_le (events.map WireEvent.toVec)
  have helapsed := length_number_u64_le (u64FromMillis (asMillis live.elapsed))
  have hreason : (Json.string live.stopReason.snakeCase).length ≤ 33 := by
    cases live.stopReason <;> decide
  rw [List.length_map] at harray
  rw [WireExchange.length_toVec]
  simp only [wireExchange, Json.length_string, escapedLength_encode] at *
  omega

end TermInterop
