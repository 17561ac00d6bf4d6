/-
What can be relied on in an emitted receipt.

Two laws of the probes, for every script of the environment.  The first is about the document: it
passes validation, and its response replays to its own events and assessment.  The second is about
the verdict of the KGP probe: the reason for which the exchange stopped says what the final parse
has seen, so that a verdict that rests on the barrier is never given to an exchange that was cut
off.

Main definitions:

* `TermInterop.Emitted` — the receipts that the two probes return;
* `TermInterop.ReadinessAgrees` — readiness agrees with the preparation exchanges.

Main results:

* `TermInterop.emitted_receipts_well_formed` — **emitted receipts are valid and replayable**;
* `TermInterop.stop_reason_agrees` — **the stop reason agrees with the assessment**.
-/

import TermInterop.Probe

set_option relaxedAutoImplicit false
set_option autoImplicit false

namespace TermInterop

section Emitted

variable {b64 : Base64.Codec}

/-! ### Well-formed and replayable -/

/-- An exchange that contains a DA1 event. -/
def HasDa1Event (exchange : WireExchange) : Prop :=
  ∃ event ∈ exchange.events, event.protocol = some Da1.protocolId

/-- Readiness agrees with the preparation exchanges: the transport is ready exactly when the last
exchange contains a DA1 event, and then no earlier exchange contains one. -/
def ReadinessAgrees (transport : TransportEvidence) : Prop :=
  (transport.readiness = .ready ↔
    ∃ earlier last, transport.preparationExchanges = earlier ++ [last] ∧ HasDa1Event last) ∧
  (transport.readiness = .ready → ∀ earlier last,
    transport.preparationExchanges = earlier ++ [last] → ∀ exchange ∈ earlier,
      ¬ HasDa1Event exchange)

/-- The receipts that the two probes return, over every script of the environment. -/
inductive Emitted (b64 : Base64.Codec) : ProbeReceiptV1 → Prop
  | kgp {environment : ProbeEnvironment} {args : KgpProbeArgs} {ops : List TtyOp}
      {receipt : ProbeReceiptV1} :
      (kgpReceipt b64 environment args).Returns ops receipt → Emitted b64 receipt
  | sixel {environment : ProbeEnvironment} {args : TtyProbeArgs} {ops : List TtyOp}
      {receipt : ProbeReceiptV1} :
      (sixelReceipt b64 environment args).Returns ops receipt → Emitted b64 receipt

/-- An exchange whose events are numbered in order and carry Base64 bytes is accepted. -/
theorem exchangeCanonical_wireExchange {logicalRequest wireRequest : Bytes} {live : LiveExchange}
    {events : List WireEvent}
    (hsequence : ∀ index event, events[index]? = some event → event.sequence = u32FromIndex index)
    (hraw : ∀ event ∈ events, IsBase64 b64 event.rawBase64) :
    ExchangeCanonical b64 (wireExchange b64 logicalRequest wireRequest live events) where
  logicalRequest := isBase64_encode b64 _
  wireRequest := isBase64_encode b64 _
  response := isBase64_encode b64 _
  events index hindex := by
    refine ⟨?_, hraw _ (List.getElem_mem hindex)⟩
    rw [Nat.zero_add]
    exact hsequence index _ (List.getElem?_eq_getElem hindex)

theorem exchangeCanonical_of_readiness {exchange : WireExchange}
    (h : IsReadinessExchange b64 exchange) : ExchangeCanonical b64 exchange := by
  obtain ⟨live, rfl⟩ := h
  exact exchangeCanonical_wireExchange (fun index event => sequence_enumerateEvents)
    fun event => isBase64_enumerateEvents

theorem hasDa1Event_of_readiness {exchange : WireExchange} (h : IsReadinessExchange b64 exchange) :
    HasDa1Event exchange ↔ exchange.events ≠ [] := by
  constructor
  · rintro ⟨event, hmem, -⟩
    exact List.ne_nil_of_mem hmem
  · intro hne
    obtain ⟨event, hmem⟩ := List.exists_mem_of_ne_nil _ hne
    refine ⟨event, hmem, ?_⟩
    obtain ⟨live, rfl⟩ := h
    have hmem' : event ∈ enumerateEvents .barrierReply (Da1.parseResponses b64 live.response) :=
      hmem
    rw [enumerateEvents, List.mem_mapIdx] at hmem'
    obtain ⟨index, hindex, rfl⟩ := hmem'
    rfl

/-- Readiness agrees with what the attempts recorded. -/
theorem readinessAgrees_of_attempted {transport : TransportEvidence} {ops : List TtyOp}
    (h : Attempted b64 transport.preparationExchanges transport.readiness ops) :
    ReadinessAgrees transport := by
  have hevent : ∀ exchange ∈ transport.preparationExchanges,
      (HasDa1Event exchange ↔ exchange.events ≠ []) :=
    fun exchange hmem => hasDa1Event_of_readiness (h.recorded exchange hmem)
  constructor
  · constructor
    · intro hready
      obtain ⟨earlier, last, heq, hlast, -⟩ := h.ready hready
      exact ⟨earlier, last, heq, (hevent last (by simp [heq])).2 hlast⟩
    · rintro ⟨earlier, last, heq, hlast⟩
      by_contra hnot
      have hmem : last ∈ transport.preparationExchanges := by simp [heq]
      exact (hevent last hmem).1 hlast (h.silent hnot last hmem)
  · intro hready earlier last heq exchange hmem hda1
    obtain ⟨earlier', last', heq', -, hquiet⟩ := h.ready hready
    have hsplit := List.append_inj' (heq.symm.trans heq') rfl
    have hmem' : exchange ∈ transport.preparationExchanges := by
      rw [heq]
      exact List.mem_append_left _ hmem
    exact (hevent exchange hmem').1 hda1 (hquiet exchange (hsplit.1 ▸ hmem))

/-- An emitted receipt is accepted. -/
theorem validate_of_emitted {receipt : ProbeReceiptV1} (h : Emitted b64 receipt) :
    receipt.validate b64 = .ok () := by
  rw [ProbeReceiptV1.validate_eq_ok_iff]
  cases h with
  | kgp h =>
      obtain ⟨_, _, _, live, _, htransport, _, _, hschema, hexchange, _⟩ := kgpReceipt_returns h
      refine ⟨hschema, fun exchange hmem =>
        exchangeCanonical_of_readiness ((prepareTransport_returns htransport).recorded _ hmem), ?_⟩
      rw [hexchange]
      exact exchangeCanonical_wireExchange (fun index event => Kgp.sequence_parseExchange)
        fun event => Kgp.isBase64_parseExchange
  | sixel h =>
      obtain ⟨_, _, live, htransport, _, _, hschema, hexchange, _⟩ := sixelReceipt_returns h
      refine ⟨hschema, fun exchange hmem =>
        exchangeCanonical_of_readiness ((prepareTransport_returns htransport).recorded _ hmem), ?_⟩
      rw [hexchange]
      exact exchangeCanonical_wireExchange (fun index event => Sixel.sequence_parseExchange)
        fun event => Sixel.isBase64_parseExchange

/-- **Emitted receipts are valid and replayable**: a receipt of either probe passes validation, its
response parsed again gives its own events and assessment, its readiness agrees with its
preparation exchanges, and a negotiation over emitted receipts validates. -/
theorem emitted_receipts_well_formed (b64 : Base64.Codec) :
    (∀ environment args ops receipt, (kgpReceipt b64 environment args).Returns ops receipt →
      receipt.validate b64 = .ok () ∧
      (∃ bytes, b64.decode receipt.exchange.responseBase64 = some bytes ∧
        (Kgp.parseExchange b64 bytes args.correlationId).events = receipt.exchange.events ∧
        (Kgp.parseExchange b64 bytes args.correlationId).assessment = receipt.assessment) ∧
      ReadinessAgrees receipt.context.transport) ∧
    (∀ environment args ops receipt, (sixelReceipt b64 environment args).Returns ops receipt →
      receipt.validate b64 = .ok () ∧
      (∃ bytes, b64.decode receipt.exchange.responseBase64 = some bytes ∧
        (Sixel.parseExchange b64 bytes).events = receipt.exchange.events ∧
        (Sixel.parseExchange b64 bytes).assessment = receipt.assessment) ∧
      ReadinessAgrees receipt.context.transport) ∧
    (∀ receipts : List ProbeReceiptV1, (∀ receipt ∈ receipts, Emitted b64 receipt) →
      (negotiateCapabilitiesV1 receipts).validate b64 = .ok ()) := by
  refine ⟨?_, ?_, ?_⟩
  · intro environment args ops receipt h
    refine ⟨validate_of_emitted (Emitted.kgp h), ?_⟩
    obtain ⟨_, _, _, live, _, htransport, _, _, _, hexchange, hassess⟩ := kgpReceipt_returns h
    refine ⟨⟨live.response, ?_, ?_, hassess.symm⟩,
      readinessAgrees_of_attempted (prepareTransport_returns htransport)⟩
    · rw [hexchange]
      exact b64.decode_encode live.response
    · rw [hexchange]
      rfl
  · intro environment args ops receipt h
    refine ⟨validate_of_emitted (Emitted.sixel h), ?_⟩
    obtain ⟨_, _, live, htransport, _, _, _, hexchange, hassess⟩ := sixelReceipt_returns h
    refine ⟨⟨live.response, ?_, ?_, hassess.symm⟩,
      readinessAgrees_of_attempted (prepareTransport_returns htransport)⟩
    · rw [hexchange]
      exact b64.decode_encode live.response
    · rw [hexchange]
      rfl
  · intro receipts h
    exact validate_negotiateCapabilitiesV1.2 fun receipt hmem =>
      validate_of_emitted (h receipt hmem)

/-- A transport that is ready at the second attempt, and a terminal that supports the query. -/
def sampleEnvironment : ProbeEnvironment :=
  { prepareStarted := 0
    attempts := [⟨0, sessionFrom 0 [⟨0, .timeout⟩]⟩,
      ⟨100000000, sessionFrom 100000000 [arrives 100000000 (Text.asBytes "\x1b[?62;4c")]⟩]
    session := sessionFrom 120000000 [arrives 120000000 (Text.asBytes "\x1b_Gi=31;OK"),
      ⟨121000000, .failed .EINTR⟩, arrives 122000000 (Text.asBytes "\x1b\\\x1b[?62;4c")]
    sinceEpoch := some 0
    varOs := fun name => if name = "TERM" then some (Text.asBytes "xterm") else none }

theorem emitted_receipts_well_formed_sample :
    ∃ ops receipt,
      (kgpReceipt Base64.standard sampleEnvironment ⟨31, sampleArgs⟩).Returns ops receipt ∧
      receipt.validate Base64.standard = .ok () ∧ ReadinessAgrees receipt.context.transport ∧
      (negotiateCapabilitiesV1 [receipt]).validate Base64.standard = .ok () := by
  obtain ⟨ops, receipt, h, -⟩ :=
    Traced.exists_returns (kgpReceipt Base64.standard sampleEnvironment ⟨31, sampleArgs⟩)
      (fun _ => true) (by rfl)
  obtain ⟨hkgp, -, hnegotiate⟩ := emitted_receipts_well_formed Base64.standard
  obtain ⟨hvalid, -, hready⟩ := hkgp sampleEnvironment ⟨31, sampleArgs⟩ ops receipt h
  refine ⟨ops, receipt, h, hvalid, hready, hnegotiate [receipt] ?_⟩
  exact List.forall_mem_singleton.2 (Emitted.kgp h)

/-! ### The stop reason and the verdict -/

/-- What the predicate of the KGP probe says about the final response. -/
theorem stopReason_of_exchange {session : TtySession} {request : Bytes}
    {timeout maxResponseBytes : ℕ} {correlationId : UInt32} {ops : List TtyOp} {live : LiveExchange}
    (h : (executeTtyExchange session request timeout maxResponseBytes
      fun response => kgpStopReason b64 response correlationId).Returns ops live) :
    live.response.length ≤ maxResponseBytes ∧
      (kgpStopReason b64 live.response correlationId = some live.stopReason ∨
        kgpStopReason b64 live.response correlationId = none ∧
          (live.stopReason = .resourceLimit ∨ live.stopReason = .timeout ∨
            live.stopReason = .endOfInput)) := by
  obtain ⟨deadline, reads, -, -, -, hloop⟩ := executeTtyExchange_returns h
  have hstopped := exchangeLoop_returns hloop
  exact ⟨hstopped.bound (Nat.zero_le _), hstopped.why⟩

/-- A verdict that rests on the barrier is given only after the barrier. -/
theorem barrierSeen_of_verdict {response : Bytes} {correlationId : UInt32}
    (h : (Kgp.parseExchange b64 response correlationId).assessment.conformance = .conformant ∨
      (Kgp.parseExchange b64 response correlationId).assessment.availability = .unavailable) :
    (Kgp.parseExchange b64 response correlationId).barrierSeen = true :=
  Kgp.barrierSeen_iff.2 (Kgp.barrier_of_verdict h)

/-- A conformant verdict is given only with a correlated reply. -/
theorem correlatedReplySeen_of_conformant {response : Bytes} {correlationId : UInt32}
    (havailable :
      (Kgp.parseExchange b64 response correlationId).assessment.availability = .available)
    (hconformant :
      (Kgp.parseExchange b64 response correlationId).assessment.conformance = .conformant) :
    (Kgp.parseExchange b64 response correlationId).correlatedReplySeen = true := by
  obtain ⟨reply, -, hreply, -⟩ := Kgp.conformant_iff.1 ⟨havailable, hconformant⟩
  exact Kgp.correlatedReplySeen_iff.2 (by rw [hreply]; rfl)

/-- **The stop reason agrees with the assessment**: what stopped the exchange says what the final
parse has seen, and a verdict that rests on the barrier is never given to an exchange that was cut
off. -/
theorem stop_reason_agrees (b64 : Base64.Codec) :
    (∀ session request timeout maxResponseBytes correlationId ops live,
      (executeTtyExchange session request timeout maxResponseBytes
        fun response => kgpStopReason b64 response correlationId).Returns ops live →
      let parsed := Kgp.parseExchange b64 live.response correlationId
      live.response.length ≤ maxResponseBytes ∧
      (live.stopReason = .capabilityAndBarrierObserved ↔
        parsed.correlatedReplySeen = true ∧ parsed.barrierSeen = true) ∧
      (live.stopReason = .barrierObserved ↔
        parsed.barrierSeen = true ∧ parsed.correlatedReplySeen = false) ∧
      (live.stopReason = .timeout ∨ live.stopReason = .resourceLimit ∨
        live.stopReason = .endOfInput → parsed.barrierSeen = false)) ∧
    (∀ environment args ops receipt, (kgpReceipt b64 environment args).Returns ops receipt →
      (receipt.assessment.availability = .available ∧
          receipt.assessment.conformance = .conformant →
        receipt.exchange.stopReason = .capabilityAndBarrierObserved) ∧
      (receipt.exchange.stopReason = .timeout ∨ receipt.exchange.stopReason = .resourceLimit ∨
          receipt.exchange.stopReason = .endOfInput →
        receipt.assessment.conformance ≠ .conformant ∧
          receipt.assessment.availability ≠ .unavailable)) := by
  constructor
  · intro session request timeout maxResponseBytes correlationId ops live h
    obtain ⟨hbound, hwhy⟩ := stopReason_of_exchange h
    refine ⟨hbound, ?_⟩
    obtain hfired | ⟨hnone, hcut⟩ := hwhy
    · obtain ⟨hbarrier, hreason⟩ := kgpStopReason_eq_some_iff.1 hfired
      rw [hreason, hbarrier]
      cases (Kgp.parseExchange b64 live.response correlationId).correlatedReplySeen <;> simp
    · have hbarrier := kgpStopReason_eq_none_iff.1 hnone
      rw [hbarrier]
      obtain hreason | hreason | hreason := hcut <;> simp [hreason]
  · intro environment args ops receipt h
    obtain ⟨_, _, _, live, _, _, hlive, _, _, hexchange, hassess⟩ := kgpReceipt_returns h
    obtain ⟨-, hwhy⟩ := stopReason_of_exchange hlive
    rw [hexchange, hassess]
    change (_ → live.stopReason = _) ∧ (live.stopReason = _ ∨ live.stopReason = _ ∨
      live.stopReason = _ → _)
    obtain hfired | ⟨hnone, hcut⟩ := hwhy
    · obtain ⟨-, hreason⟩ := kgpStopReason_eq_some_iff.1 hfired
      constructor
      · rintro ⟨havailable, hconformant⟩
        rw [hreason, if_pos (correlatedReplySeen_of_conformant havailable hconformant)]
      · rw [hreason]
        split_ifs <;> simp
    · have hbarrier := kgpStopReason_eq_none_iff.1 hnone
      have hverdict := mt barrierSeen_of_verdict (by rw [hbarrier]; simp)
      rw [not_or] at hverdict
      exact ⟨fun h => absurd h.2 hverdict.1, fun _ => hverdict⟩

theorem stop_reason_agrees_sample :
    ∃ ops receipt,
      (kgpReceipt Base64.standard sampleEnvironment ⟨31, sampleArgs⟩).Returns ops receipt ∧
      receipt.assessment.conformance = .conformant ∧
      receipt.exchange.stopReason = .capabilityAndBarrierObserved := by
  obtain ⟨ops, receipt, h, htest⟩ :=
    Traced.exists_returns (kgpReceipt Base64.standard sampleEnvironment ⟨31, sampleArgs⟩)
      (fun receipt => receipt.assessment.availability = .available ∧
        receipt.assessment.conformance = .conformant) (by rfl)
  have hverdict := of_decide_eq_true htest
  obtain ⟨-, hreceipt⟩ := stop_reason_agrees Base64.standard
  exact ⟨ops, receipt, h, hverdict.2,
    (hreceipt sampleEnvironment ⟨31, sampleArgs⟩ ops receipt h).1 hverdict⟩

end Emitted

end TermInterop
