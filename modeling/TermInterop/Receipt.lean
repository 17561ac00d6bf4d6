/-
The probe receipt: the protocol-neutral record of one live capability probe.

A receipt keeps three layers apart: what was sent and received (`WireExchange`), under which
transport (`ProbeContext`), and what was concluded (`Assessment`).  This module transcribes the
record types of the core crate and the one check that every consumer can make without knowing the
protocol, `ProbeReceiptV1.validate`: the schema identity, the Base64 of every evidence field, and
the numbering of the events.

The numbering is by `u32` while a list of events can be longer than `u32` can count, so the
expected number of an event is its index clamped to `u32::MAX`; `u32FromIndex` is that clamp and
`u32FromIndex_succ` is the counter that the parsers increment instead.

Main definitions:

* `TermInterop.WireEvent`, `TermInterop.WireExchange`, `TermInterop.ProbeReceiptV1` — the records;
* `TermInterop.validateExchange`, `TermInterop.ProbeReceiptV1.validate` — the structural check.

Main results:

* `TermInterop.validateExchange_eq_ok_iff` — what the check of one exchange says;
* `TermInterop.ProbeReceiptV1.validate_eq_ok_iff` — **what an accepted receipt satisfies**.
-/

import TermInterop.Base64

set_option relaxedAutoImplicit false
set_option autoImplicit false

namespace TermInterop

/-- Bytes of a stream or of a file. -/
abbrev Bytes := List UInt8

/-- Stable schema identity for `ProbeReceiptV1`. -/
def PROBE_RECEIPT_SCHEMA_V1 : String := "urn:terminal-interop:probe-receipt:v1"

/-! ### Identities -/

/-- A protocol or standards family independent of any implementation. -/
structure ProtocolId where
  «namespace» : String
  name : String
  revision : String
  deriving DecidableEq

/-- One capability with semantics defined by a protocol profile. -/
structure CapabilityId where
  protocol : ProtocolId
  name : String
  deriving DecidableEq

/-- Identity of the adapter that produced the wire exchange. -/
structure AdapterIdentity where
  name : String
  version : String
  deriving DecidableEq

/-- Protocol-scoped correlation identity for one request-response relation. -/
structure CorrelationId where
  «namespace» : String
  value : String
  deriving DecidableEq

/-! ### The context of a probe -/

/-- How an environment hint was retained. -/
inductive HintObservation
  | present
  | value (text : String)
  deriving DecidableEq

/-- A bounded environment observation. -/
structure EnvironmentHint where
  name : String
  observation : HintObservation
  deriving DecidableEq

/-- One explicitly declared transport or consumer hop. -/
structure PathHop where
  role : String
  implementation : String
  version : Option String
  deriving DecidableEq

/-- Whether the real transport topology is known from direct evidence. -/
inductive TopologyObservation
  | unknown
  | declared (hops : List PathHop)
  deriving DecidableEq

/-- Whether a transport path was ready for an application protocol exchange. -/
inductive TransportReadiness
  | notRequired
  | ready
  | unknown
  deriving DecidableEq

/-! ### The wire exchange -/

/-- Semantic role of a parsed wire event. -/
inductive WireEventRole
  | capabilityReply
  | barrierReply
  | unclassified
  deriving DecidableEq

/-- The structured fields of an event. -/
abbrev Fields := Std.ExtTreeMap String String

/-- One parsed event with its exact wire representation. -/
structure WireEvent where
  sequence : UInt32
  role : WireEventRole
  protocol : Option ProtocolId
  correlation : Option String
  status : Option String
  fields : Fields
  rawBase64 : String

/-- Why the live exchange stopped collecting response bytes. -/
inductive StopReason
  | capabilityAndBarrierObserved
  | barrierObserved
  | timeout
  | resourceLimit
  | endOfInput
  deriving DecidableEq

/-- Exact bytes and parsed events from one request-response exchange. -/
structure WireExchange where
  logicalRequestBase64 : String
  wireRequestBase64 : String
  responseBase64 : String
  events : List WireEvent
  elapsedMs : UInt64
  stopReason : StopReason

/-- Transport identity and any preparation exchanges executed before the probe. -/
structure TransportEvidence where
  adapter : AdapterIdentity
  readiness : TransportReadiness
  preparationExchanges : List WireExchange

/-- Context in which a live probe was executed. -/
structure ProbeContext where
  ttyEndpoint : String
  transport : TransportEvidence
  environmentHints : List EnvironmentHint
  topology : TopologyObservation

/-! ### The assessment -/

/-- Evidence-backed availability of the requested capability. -/
inductive Availability
  | available
  | unavailable
  | unknown
  deriving DecidableEq

/-- Conformance of the observed exchange to the active profile. -/
inductive Conformance
  | conformant
  | nonconformant
  | notApplicable
  | inconclusive
  deriving DecidableEq

/-- Result of one stable conformance assertion. -/
inductive AssertionOutcome
  | pass
  | fail
  | unknown
  | notApplicable
  deriving DecidableEq

/-- One independently consumable assertion result. -/
structure AssertionResult where
  id : String
  outcome : AssertionOutcome
  detail : String
  deriving DecidableEq

/-- Interpretation kept separate from the wire exchange that supports it. -/
structure Assessment where
  availability : Availability
  conformance : Conformance
  assertions : List AssertionResult
  deriving DecidableEq

/-- Version-one portable receipt for a live terminal capability probe. -/
structure ProbeReceiptV1 where
  schema : String
  observedAtUnixMs : UInt64
  capability : CapabilityId
  adapter : AdapterIdentity
  correlation : Option CorrelationId
  context : ProbeContext
  exchange : WireExchange
  assessment : Assessment

/-! ### Structural validation -/

/-- Structural failure in a serialized probe receipt. -/
inductive ProbeReceiptValidationError
  | unsupportedSchema (schema : String)
  | invalidBase64 (field : String)
  | noncanonicalEventSequence (exchange : String) (expected actual : UInt32)
  deriving DecidableEq

/-- `u32::try_from(index).unwrap_or(u32::MAX)`. -/
def u32FromIndex (index : ℕ) : UInt32 :=
  if index < 2 ^ 32 then UInt32.ofNat index else UInt32.ofNat (2 ^ 32 - 1)

/-- `sequence.saturating_add(1)`. -/
def saturatingSucc (sequence : UInt32) : UInt32 :=
  if sequence.toNat + 1 < 2 ^ 32 then sequence + 1 else UInt32.ofNat (2 ^ 32 - 1)

@[simp] theorem u32FromIndex_zero : u32FromIndex 0 = 0 := rfl

/-- Counting with saturation is clamping the index. -/
theorem u32FromIndex_succ (index : ℕ) :
    u32FromIndex (index + 1) = saturatingSucc (u32FromIndex index) := by
  rcases Nat.lt_or_ge (index + 1) (2 ^ 32) with h | h
  · have hlt : index < 2 ^ 32 := by omega
    have hval : (UInt32.ofNat index).toNat = index := UInt32.toNat_ofNat_of_lt' hlt
    rw [saturatingSucc, u32FromIndex, u32FromIndex, if_pos h, if_pos hlt, hval, if_pos h]
    simp
  · rcases Nat.lt_or_ge index (2 ^ 32) with hlt | hge
    · have hval : (UInt32.ofNat index).toNat = index := UInt32.toNat_ofNat_of_lt' hlt
      rw [saturatingSucc, u32FromIndex, u32FromIndex, if_neg (by omega), if_pos hlt, hval,
        if_neg (by omega)]
    · rw [u32FromIndex, u32FromIndex, if_neg (by omega), if_neg (by omega)]
      rfl

section Validate

variable (b64 : Base64.Codec)

/-- A field must be standard Base64. -/
def validateBase64 (field value : String) : Except ProbeReceiptValidationError Unit :=
  match b64.decode value with
  | some _ => .ok ()
  | none => .error (.invalidBase64 field)

/-- The events of an exchange from one index on. -/
def validateEvents (path : String) : ℕ → List WireEvent → Except ProbeReceiptValidationError Unit
  | _, [] => .ok ()
  | index, event :: rest =>
      let expected := u32FromIndex index
      if event.sequence ≠ expected then
        .error (.noncanonicalEventSequence path expected event.sequence)
      else do
        validateBase64 b64 s!"{path}.events[{index}].raw_base64" event.rawBase64
        validateEvents path (index + 1) rest

/-- The evidence fields of an exchange, and then its events. -/
def validateExchange (path : String) (exchange : WireExchange) :
    Except ProbeReceiptValidationError Unit := do
  validateBase64 b64 s!"{path}.logical_request_base64" exchange.logicalRequestBase64
  validateBase64 b64 s!"{path}.wire_request_base64" exchange.wireRequestBase64
  validateBase64 b64 s!"{path}.response_base64" exchange.responseBase64
  validateEvents b64 path 0 exchange.events

/-- The preparation exchanges from one index on. -/
def validatePreparation :
    ℕ → List WireExchange → Except ProbeReceiptValidationError Unit
  | _, [] => .ok ()
  | index, exchange :: rest => do
      validateExchange b64 s!"context.transport.preparation_exchanges[{index}]" exchange
      validatePreparation (index + 1) rest

/-- **Validate the protocol-neutral structural invariants of a receipt.** -/
def ProbeReceiptV1.validate (receipt : ProbeReceiptV1) :
    Except ProbeReceiptValidationError Unit :=
  if receipt.schema ≠ PROBE_RECEIPT_SCHEMA_V1 then .error (.unsupportedSchema receipt.schema)
  else do
    validatePreparation b64 0 receipt.context.transport.preparationExchanges
    validateExchange b64 "exchange" receipt.exchange

/-! ### What validation says -/

/-- A text that the codec accepts. -/
def IsBase64 (value : String) : Prop := (b64.decode value).isSome

theorem isBase64_encode (bytes : Bytes) : IsBase64 b64 (b64.encode bytes) := by
  simp [IsBase64]

/-- Running one check and then another succeeds when both do. -/
theorem except_bind_eq_ok_iff {ε : Type*} {x y : Except ε Unit} :
    (x >>= fun _ => y) = .ok () ↔ x = .ok () ∧ y = .ok () := by
  cases x with
  | error e => simp [bind, Except.bind]
  | ok u => simp [bind, Except.bind]

theorem validateBase64_eq_ok_iff {field value : String} :
    validateBase64 b64 field value = .ok () ↔ IsBase64 b64 value := by
  rw [validateBase64, IsBase64]
  cases b64.decode value <;> simp

/-- The events are numbered from an index on, and their bytes are Base64. -/
def EventsCanonical (index : ℕ) (events : List WireEvent) : Prop :=
  ∀ k (h : k < events.length),
    events[k].sequence = u32FromIndex (index + k) ∧ IsBase64 b64 events[k].rawBase64

theorem eventsCanonical_cons {index : ℕ} {event : WireEvent} {rest : List WireEvent} :
    EventsCanonical b64 index (event :: rest) ↔
      (event.sequence = u32FromIndex index ∧ IsBase64 b64 event.rawBase64) ∧
        EventsCanonical b64 (index + 1) rest := by
  constructor
  · intro h
    refine ⟨h 0 (by simp), fun k hk => ?_⟩
    have hnext := h (k + 1) (by simpa using hk)
    rwa [show index + (k + 1) = index + 1 + k by omega] at hnext
  · rintro ⟨hhead, htail⟩ k hk
    cases k with
    | zero => exact hhead
    | succ k =>
        have hnext := htail k (by simpa using hk)
        rwa [show index + 1 + k = index + (k + 1) by omega] at hnext

theorem validateEvents_eq_ok_iff {path : String} {index : ℕ} {events : List WireEvent} :
    validateEvents b64 path index events = .ok () ↔ EventsCanonical b64 index events := by
  induction events generalizing index with
  | nil => simp [validateEvents, EventsCanonical]
  | cons event rest ih =>
      rw [validateEvents, eventsCanonical_cons, ← ih]
      by_cases hseq : event.sequence = u32FromIndex index
      · simp only [hseq, ne_eq, not_true_eq_false, if_false, true_and]
        rw [except_bind_eq_ok_iff, validateBase64_eq_ok_iff]
      · simp [hseq]

/-- What an accepted exchange satisfies: every evidence field is Base64, and the events are
numbered in order. -/
structure ExchangeCanonical (exchange : WireExchange) : Prop where
  logicalRequest : IsBase64 b64 exchange.logicalRequestBase64
  wireRequest : IsBase64 b64 exchange.wireRequestBase64
  response : IsBase64 b64 exchange.responseBase64
  events : EventsCanonical b64 0 exchange.events

/-- **What the check of one exchange says**, whatever its path. -/
theorem validateExchange_eq_ok_iff {path : String} {exchange : WireExchange} :
    validateExchange b64 path exchange = .ok () ↔ ExchangeCanonical b64 exchange := by
  rw [validateExchange]
  simp only [except_bind_eq_ok_iff, validateBase64_eq_ok_iff, validateEvents_eq_ok_iff]
  exact ⟨fun ⟨h₁, h₂, h₃, h₄⟩ => ⟨h₁, h₂, h₃, h₄⟩, fun ⟨h₁, h₂, h₃, h₄⟩ => ⟨h₁, h₂, h₃, h₄⟩⟩

theorem validatePreparation_eq_ok_iff {index : ℕ} {exchanges : List WireExchange} :
    validatePreparation b64 index exchanges = .ok () ↔
      ∀ exchange ∈ exchanges, ExchangeCanonical b64 exchange := by
  induction exchanges generalizing index with
  | nil => simp [validatePreparation]
  | cons exchange rest ih =>
      rw [validatePreparation, except_bind_eq_ok_iff, validateExchange_eq_ok_iff, ih,
        List.forall_mem_cons]

/-- **What an accepted receipt satisfies**, and all it has to. -/
theorem ProbeReceiptV1.validate_eq_ok_iff {receipt : ProbeReceiptV1} :
    receipt.validate b64 = .ok () ↔
      receipt.schema = PROBE_RECEIPT_SCHEMA_V1 ∧
      (∀ exchange ∈ receipt.context.transport.preparationExchanges,
        ExchangeCanonical b64 exchange) ∧
      ExchangeCanonical b64 receipt.exchange := by
  rw [ProbeReceiptV1.validate]
  by_cases hschema : receipt.schema = PROBE_RECEIPT_SCHEMA_V1
  · simp only [hschema, ne_eq, not_true_eq_false, if_false, true_and]
    rw [except_bind_eq_ok_iff, validatePreparation_eq_ok_iff, validateExchange_eq_ok_iff]
  · simp [hschema]

end Validate

end TermInterop
