/-
Capability negotiation: the first eligible receipt, and the receipt of having chosen it.

`negotiateCapabilitiesV1` walks the receipts once and remembers the first eligible one in a
variable that its mapping closure captures.  `CapabilityNegotiationV1.validate` walks the finished
document, recomputes every derived field of every candidate, remembers the first candidate that is
marked eligible, and compares it with the selection.  The two loops are written differently; the
theorem of this module is that they agree exactly: **a document is accepted when its receipts are
and when it is what the producer makes of them**.

Both loops carry a state through the list, so each gets one lemma that describes it from an
arbitrary state: `negotiateFrom_eq` for the producer and `validateCandidates_eq_ok_iff` for the
validator.  Both are stated in terms of `firstEligible`, the position-free notion that the two
loops implement.

Main definitions:

* `TermInterop.negotiateCapabilitiesV1` — the producer;
* `TermInterop.CapabilityNegotiationV1.validate` — the validator;
* `TermInterop.selectionFrom` — the selection that the receipts determine.

Main results:

* `TermInterop.validate_negotiateCapabilitiesV1` — what is produced is accepted;
* `TermInterop.validate_eq_ok_iff` — the equivalence.
-/

import TermInterop.Receipt

set_option relaxedAutoImplicit false
set_option autoImplicit false

namespace TermInterop

/-- Stable schema identity for `CapabilityNegotiationV1`. -/
def CAPABILITY_NEGOTIATION_SCHEMA_V1 : String := "urn:terminal-interop:capability-negotiation:v1"

/-! ### The document -/

/-- Whether one observed candidate is safe to actuate. -/
inductive CandidateDisposition
  | eligible
  | ineligible
  deriving DecidableEq

/-- One capability receipt in caller-defined preference order. -/
structure NegotiationCandidateV1 where
  preference : UInt64
  disposition : CandidateDisposition
  receipt : ProbeReceiptV1

/-- Result of evaluating all supplied candidates. -/
inductive NegotiationSelectionV1
  | selected (preference : UInt64) (capability : CapabilityId) (adapter : AdapterIdentity)
  | noEligibleCandidate
  deriving DecidableEq

/-- Portable receipt for deterministic capability selection from ordered live evidence. -/
structure CapabilityNegotiationV1 where
  schema : String
  candidates : List NegotiationCandidateV1
  selection : NegotiationSelectionV1

/-- Semantic failure in a serialized capability negotiation receipt. -/
inductive NegotiationValidationError
  | unsupportedSchema (schema : String)
  | noncanonicalPreference (expected actual : UInt64)
  | dispositionMismatch (preference : UInt64)
  | selectionMismatch
  | selectedIdentityMismatch (preference : UInt64)
  | invalidReceipt (preference : UInt64) (source : ProbeReceiptValidationError)
  deriving DecidableEq

/-- `index as u64`. -/
def preferenceFromIndex (index : ℕ) : UInt64 := UInt64.ofNat index

/-- Whether a probe receipt establishes every condition required for actuation. -/
def receiptIsEligible (receipt : ProbeReceiptV1) : Bool :=
  receipt.assessment.availability = .available &&
    receipt.assessment.conformance = .conformant &&
    (receipt.context.transport.readiness = .notRequired ||
      receipt.context.transport.readiness = .ready)

/-- The disposition of a receipt. -/
def expectedDisposition (receipt : ProbeReceiptV1) : CandidateDisposition :=
  if receiptIsEligible receipt then .eligible else .ineligible

/-! ### The producer -/

/-- The captured selection after a receipt: it is set once and then stays. -/
def captureSelection (selection : NegotiationSelectionV1) (preference : UInt64)
    (receipt : ProbeReceiptV1) : NegotiationSelectionV1 :=
  if receiptIsEligible receipt then
    match selection with
    | .noEligibleCandidate => .selected preference receipt.capability receipt.adapter
    | .selected _ _ _ => selection
  else selection

/-- The loop of the producer: the selection made so far is the captured variable. -/
def negotiateFrom : ℕ → NegotiationSelectionV1 → List ProbeReceiptV1 →
    List NegotiationCandidateV1 × NegotiationSelectionV1
  | _, selection, [] => ([], selection)
  | index, selection, receipt :: rest =>
      let preference := preferenceFromIndex index
      let candidate := ⟨preference, expectedDisposition receipt, receipt⟩
      let result := negotiateFrom (index + 1) (captureSelection selection preference receipt) rest
      (candidate :: result.1, result.2)

/-- **Select the first eligible capability while preserving every supplied receipt.** -/
def negotiateCapabilitiesV1 (receipts : List ProbeReceiptV1) : CapabilityNegotiationV1 :=
  let result := negotiateFrom 0 .noEligibleCandidate receipts
  ⟨CAPABILITY_NEGOTIATION_SCHEMA_V1, result.1, result.2⟩

/-! ### The validator -/

section Validate

variable (b64 : Base64.Codec)

/-- The loop of the validator: it carries the first candidate marked eligible. -/
def validateCandidates : ℕ → Option NegotiationCandidateV1 → List NegotiationCandidateV1 →
    Except NegotiationValidationError (Option NegotiationCandidateV1)
  | _, first, [] => .ok first
  | index, first, candidate :: rest =>
      let expected := preferenceFromIndex index
      if candidate.preference ≠ expected then
        .error (.noncanonicalPreference expected candidate.preference)
      else
        match candidate.receipt.validate b64 with
        | .error source => .error (.invalidReceipt candidate.preference source)
        | .ok () =>
            if candidate.disposition ≠ expectedDisposition candidate.receipt then
              .error (.dispositionMismatch candidate.preference)
            else
              let first' :=
                if first.isNone ∧ candidate.disposition = .eligible then some candidate else first
              validateCandidates (index + 1) first' rest

/-- The selection against the first eligible candidate. -/
def validateSelection (selection : NegotiationSelectionV1)
    (first : Option NegotiationCandidateV1) : Except NegotiationValidationError Unit :=
  match selection, first with
  | .noEligibleCandidate, none => .ok ()
  | .selected preference capability adapter, some candidate =>
      if preference = candidate.preference then
        if capability ≠ candidate.receipt.capability ∨ adapter ≠ candidate.receipt.adapter then
          .error (.selectedIdentityMismatch preference)
        else .ok ()
      else .error .selectionMismatch
  | _, _ => .error .selectionMismatch

/-- **Validate every derived field against the embedded evidence.** -/
def CapabilityNegotiationV1.validate (n : CapabilityNegotiationV1) :
    Except NegotiationValidationError Unit :=
  if n.schema ≠ CAPABILITY_NEGOTIATION_SCHEMA_V1 then .error (.unsupportedSchema n.schema)
  else
    match validateCandidates b64 0 none n.candidates with
    | .error e => .error e
    | .ok first => validateSelection n.selection first

end Validate

/-! ### What the producer makes of a list of receipts -/

/-- The candidates of a list of receipts, numbered from an index on. -/
def candidatesFrom : ℕ → List ProbeReceiptV1 → List NegotiationCandidateV1
  | _, [] => []
  | index, receipt :: rest =>
      ⟨preferenceFromIndex index, expectedDisposition receipt, receipt⟩ ::
        candidatesFrom (index + 1) rest

/-- The first candidate of a list that is marked eligible. -/
def firstEligible (candidates : List NegotiationCandidateV1) : Option NegotiationCandidateV1 :=
  candidates.find? fun candidate => candidate.disposition = .eligible

/-- The selection that names a candidate, or none. -/
def selectionOf : Option NegotiationCandidateV1 → NegotiationSelectionV1
  | none => .noEligibleCandidate
  | some candidate =>
      .selected candidate.preference candidate.receipt.capability candidate.receipt.adapter

theorem firstEligible_candidatesFrom_cons (index : ℕ) (receipt : ProbeReceiptV1)
    (rest : List ProbeReceiptV1) :
    firstEligible (candidatesFrom index (receipt :: rest)) =
      if receiptIsEligible receipt then
        some ⟨preferenceFromIndex index, expectedDisposition receipt, receipt⟩
      else firstEligible (candidatesFrom (index + 1) rest) := by
  rw [firstEligible, candidatesFrom, List.find?_cons]
  by_cases h : receiptIsEligible receipt = true
  · simp [expectedDisposition, h]
  · simp [expectedDisposition, h, firstEligible]

/-- The loop of the producer from an arbitrary captured selection: a selection once made stays. -/
theorem negotiateFrom_eq (index : ℕ) (selection : NegotiationSelectionV1)
    (receipts : List ProbeReceiptV1) :
    negotiateFrom index selection receipts =
      (candidatesFrom index receipts,
        match selection with
        | .noEligibleCandidate => selectionOf (firstEligible (candidatesFrom index receipts))
        | .selected _ _ _ => selection) := by
  induction receipts generalizing index selection with
  | nil => cases selection <;> rfl
  | cons receipt rest ih =>
      simp only [negotiateFrom, ih, firstEligible_candidatesFrom_cons]
      cases selection with
      | selected p c a => simp [captureSelection, candidatesFrom]
      | noEligibleCandidate =>
          by_cases h : receiptIsEligible receipt = true
          · simp [captureSelection, h, selectionOf, candidatesFrom]
          · simp [captureSelection, h, candidatesFrom]

/-- What the producer makes of a list of receipts. -/
theorem negotiateCapabilitiesV1_eq (receipts : List ProbeReceiptV1) :
    negotiateCapabilitiesV1 receipts =
      ⟨CAPABILITY_NEGOTIATION_SCHEMA_V1, candidatesFrom 0 receipts,
        selectionOf (firstEligible (candidatesFrom 0 receipts))⟩ := by
  rw [negotiateCapabilitiesV1, negotiateFrom_eq]

theorem map_receipt_candidatesFrom (index : ℕ) (receipts : List ProbeReceiptV1) :
    (candidatesFrom index receipts).map (·.receipt) = receipts := by
  induction receipts generalizing index with
  | nil => rfl
  | cons receipt rest ih => rw [candidatesFrom, List.map_cons, ih]

/-- The selection of a list of receipts names the first eligible one. -/
theorem selectionOf_candidatesFrom (index : ℕ) (receipts : List ProbeReceiptV1) :
    ((∀ receipt ∈ receipts, receiptIsEligible receipt = false) ∧
        selectionOf (firstEligible (candidatesFrom index receipts)) = .noEligibleCandidate) ∨
      ∃ before receipt after, receipts = before ++ receipt :: after ∧
        (∀ r ∈ before, receiptIsEligible r = false) ∧ receiptIsEligible receipt = true ∧
        selectionOf (firstEligible (candidatesFrom index receipts)) =
          .selected (preferenceFromIndex (index + before.length)) receipt.capability
            receipt.adapter := by
  induction receipts generalizing index with
  | nil => exact Or.inl ⟨by simp, rfl⟩
  | cons receipt rest ih =>
      rw [firstEligible_candidatesFrom_cons]
      by_cases h : receiptIsEligible receipt = true
      · exact Or.inr ⟨[], receipt, rest, rfl, by simp, h, by simp [h, selectionOf]⟩
      · have hfalse : receiptIsEligible receipt = false := by simpa using h
        rw [if_neg h]
        obtain ⟨hall, hsel⟩ | ⟨before, r, after, rfl, hbefore, hr, hsel⟩ := ih (index + 1)
        · exact Or.inl ⟨List.forall_mem_cons.2 ⟨hfalse, hall⟩, hsel⟩
        · refine Or.inr ⟨receipt :: before, r, after, rfl,
            List.forall_mem_cons.2 ⟨hfalse, hbefore⟩, hr, ?_⟩
          rw [hsel, List.length_cons, show index + 1 + before.length =
            index + (before.length + 1) by omega]

/-! ### What the validator accepts -/

section ValidateIff

variable {b64 : Base64.Codec}

/-- The loop of the validator from an arbitrary state: it accepts exactly the candidates that the
producer makes of accepted receipts, and it returns the first eligible one. -/
theorem validateCandidates_eq_ok_iff {index : ℕ} {first found : Option NegotiationCandidateV1}
    {candidates : List NegotiationCandidateV1} :
    validateCandidates b64 index first candidates = .ok found ↔
      (∀ candidate ∈ candidates, candidate.receipt.validate b64 = .ok ()) ∧
        candidates = candidatesFrom index (candidates.map (·.receipt)) ∧
        found = first.or (firstEligible candidates) := by
  induction candidates generalizing index first with
  | nil => cases first <;> simp [validateCandidates, candidatesFrom, firstEligible, eq_comm]
  | cons candidate rest ih =>
      obtain ⟨preference, disposition, receipt⟩ := candidate
      simp only [validateCandidates, List.map_cons, candidatesFrom, List.forall_mem_cons,
        List.cons.injEq, NegotiationCandidateV1.mk.injEq]
      by_cases hpref : preference = preferenceFromIndex index
      · cases hvalid : receipt.validate b64 with
        | error e => simp [hpref]
        | ok u =>
            by_cases hdisp : disposition = expectedDisposition receipt
            · have hfirst : (if first.isNone ∧ disposition = .eligible then
                  some ⟨preference, disposition, receipt⟩ else first).or (firstEligible rest) =
                  first.or (firstEligible (⟨preference, disposition, receipt⟩ :: rest)) := by
                cases first <;> by_cases he : disposition = .eligible <;>
                  simp [firstEligible, he]
              simp only [hpref, hdisp, ne_eq, not_true_eq_false, if_false, ih]
              rw [← hpref, ← hdisp, hfirst]
              simp
            · simp [hpref, hdisp]
      · simp [hpref]

theorem validateSelection_eq_ok_iff {selection : NegotiationSelectionV1}
    {first : Option NegotiationCandidateV1} :
    validateSelection selection first = .ok () ↔ selection = selectionOf first := by
  cases selection with
  | noEligibleCandidate => cases first <;> simp [validateSelection, selectionOf]
  | selected preference capability adapter =>
      cases first with
      | none => simp [validateSelection, selectionOf]
      | some candidate =>
          simp only [validateSelection, selectionOf, NegotiationSelectionV1.selected.injEq]
          split_ifs <;> grind

/-- **A document is accepted when its receipts are and when it is what the producer makes of
them.** -/
theorem CapabilityNegotiationV1.validate_eq_ok_iff {n : CapabilityNegotiationV1} :
    n.validate b64 = .ok () ↔
      (∀ candidate ∈ n.candidates, candidate.receipt.validate b64 = .ok ()) ∧
        n = negotiateCapabilitiesV1 (n.candidates.map (·.receipt)) := by
  obtain ⟨schema, candidates, selection⟩ := n
  rw [CapabilityNegotiationV1.validate, negotiateCapabilitiesV1_eq]
  simp only [CapabilityNegotiationV1.mk.injEq]
  by_cases hschema : schema = CAPABILITY_NEGOTIATION_SCHEMA_V1
  · simp only [hschema, ne_eq, not_true_eq_false, if_false, true_and]
    cases hloop : validateCandidates b64 0 none candidates with
    | error e =>
        refine iff_of_false (by simp) fun ⟨hvalid, hcand, _⟩ => ?_
        have hok : validateCandidates b64 0 none candidates =
            .ok (none.or (firstEligible candidates)) :=
          validateCandidates_eq_ok_iff.2 ⟨hvalid, hcand, rfl⟩
        rw [hloop] at hok
        cases hok
    | ok first =>
        obtain ⟨hvalid, hcand, hfirst⟩ := validateCandidates_eq_ok_iff.1 hloop
        simp only [Option.none_or] at hfirst
        rw [validateSelection_eq_ok_iff, hfirst, ← hcand]
        exact ⟨fun hsel => ⟨hvalid, rfl, hsel⟩, fun h => h.2.2⟩
  · simp [hschema]

/-- What is produced from accepted receipts is accepted, and from no others. -/
theorem validate_negotiateCapabilitiesV1 {receipts : List ProbeReceiptV1} :
    (negotiateCapabilitiesV1 receipts).validate b64 = .ok () ↔
      ∀ receipt ∈ receipts, receipt.validate b64 = .ok () := by
  have hreceipts : (negotiateCapabilitiesV1 receipts).candidates.map (·.receipt) = receipts := by
    rw [negotiateCapabilitiesV1_eq, map_receipt_candidatesFrom]
  have hmap := List.forall_mem_map (l := (negotiateCapabilitiesV1 receipts).candidates)
    (f := (·.receipt)) (P := fun r => r.validate b64 = .ok ())
  rw [hreceipts] at hmap
  rw [CapabilityNegotiationV1.validate_eq_ok_iff, hreceipts, hmap]
  simp

end ValidateIff

/-- **The validator accepts exactly what the producer makes.**  A document is accepted when its
embedded receipts are and it is the producer's document for them; the producer keeps every receipt
in order, selects the first eligible one, and is accepted exactly when its receipts are; and two
accepted documents over the same receipts are equal. -/
theorem negotiation_validate_exact (b64 : Base64.Codec) :
    (∀ n : CapabilityNegotiationV1, n.validate b64 = .ok () ↔
      (∀ candidate ∈ n.candidates, candidate.receipt.validate b64 = .ok ()) ∧
        n = negotiateCapabilitiesV1 (n.candidates.map (·.receipt))) ∧
    (∀ receipts : List ProbeReceiptV1,
      (negotiateCapabilitiesV1 receipts).candidates.map (·.receipt) = receipts ∧
      (((∀ receipt ∈ receipts, receiptIsEligible receipt = false) ∧
          (negotiateCapabilitiesV1 receipts).selection = .noEligibleCandidate) ∨
        ∃ before receipt after, receipts = before ++ receipt :: after ∧
          (∀ r ∈ before, receiptIsEligible r = false) ∧ receiptIsEligible receipt = true ∧
          (negotiateCapabilitiesV1 receipts).selection =
            .selected (preferenceFromIndex before.length) receipt.capability receipt.adapter) ∧
      ((negotiateCapabilitiesV1 receipts).validate b64 = .ok () ↔
        ∀ receipt ∈ receipts, receipt.validate b64 = .ok ())) ∧
    (∀ n m : CapabilityNegotiationV1, n.validate b64 = .ok () → m.validate b64 = .ok () →
      n.candidates.map (·.receipt) = m.candidates.map (·.receipt) → n = m) := by
  refine ⟨fun n => CapabilityNegotiationV1.validate_eq_ok_iff, fun receipts => ⟨?_, ?_, ?_⟩, ?_⟩
  · rw [negotiateCapabilitiesV1_eq, map_receipt_candidatesFrom]
  · rw [negotiateCapabilitiesV1_eq]
    simpa using selectionOf_candidatesFrom 0 receipts
  · exact validate_negotiateCapabilitiesV1
  · intro n m hn hm hreceipts
    rw [(CapabilityNegotiationV1.validate_eq_ok_iff.1 hn).2, hreceipts]
    exact (CapabilityNegotiationV1.validate_eq_ok_iff.1 hm).2.symm

/-- A receipt without any evidence, for one protocol name and one outcome. -/
def bareReceipt (name : String) (availability : Availability) (conformance : Conformance)
    (readiness : TransportReadiness) : ProbeReceiptV1 where
  schema := PROBE_RECEIPT_SCHEMA_V1
  observedAtUnixMs := 0
  capability := ⟨⟨"org.example", name, "v1"⟩, "pixel-preview"⟩
  adapter := ⟨name ++ "-adapter", "1"⟩
  correlation := none
  context := ⟨"/dev/tty", ⟨⟨name ++ "-adapter", "1"⟩, readiness, []⟩, [], .unknown⟩
  exchange := ⟨"", "", "", [], 0, .timeout⟩
  assessment := ⟨availability, conformance, []⟩

/-- Two documents over an ineligible and an eligible receipt: the second candidate is chosen. -/
theorem negotiation_validate_exact_two :
    let receipts := [bareReceipt "first" .unknown .inconclusive .unknown,
      bareReceipt "second" .available .conformant .ready]
    let n : CapabilityNegotiationV1 := ⟨CAPABILITY_NEGOTIATION_SCHEMA_V1,
      [⟨0, .ineligible, bareReceipt "first" .unknown .inconclusive .unknown⟩,
        ⟨1, .eligible, bareReceipt "second" .available .conformant .ready⟩],
      .selected 1 ⟨⟨"org.example", "second", "v1"⟩, "pixel-preview"⟩ ⟨"second-adapter", "1"⟩⟩
    n = negotiateCapabilitiesV1 receipts :=
  (negotiation_validate_exact Base64.standard).2.2 _ _ rfl
    (((negotiation_validate_exact Base64.standard).2.1 _).2.2.2 (by
      simp only [List.forall_mem_cons, List.not_mem_nil, false_imp_iff, implies_true, and_true]
      exact ⟨rfl, rfl⟩)) rfl

end TermInterop
