/-
The negotiation of a pixel renderer.

Both probes are run, and the negotiation of their receipts is written.  What is written conforms to
the schema, and the validator and the consumer both read the selection that was made.  A preview
stops at the first renderer that it may use; it uses the one that the negotiation selects.

The selection rests on what the terminal has sent: KGP is selected when the terminal has answered
the query before its barrier, and Sixel when this fails and a device attributes reply advertises it.

Main definitions:

* `TermInterop.negotiatePixel` — the negotiation;
* `TermInterop.Kgp.Confirms` — what the terminal sends when it supports KGP.

Main results:

* `TermInterop.negotiations_read_alike` — **the validator and the consumer read the selection that
  was made**;
* `TermInterop.pixel_selection_evidence` — **what the terminal has sent when a renderer is
  selected**;
* `TermInterop.preview_follows_negotiation` — **a preview uses what the negotiation selects**.
-/

import TermInterop.ConsumeNegotiation
import TermInterop.Contracts
import TermInterop.EmittedReceipts
import TermInterop.Evidence
import TermInterop.PreviewSetup

set_option relaxedAutoImplicit false
set_option autoImplicit false

namespace TermInterop

open Json (Document)

/-! ### The negotiation -/

/-- The transport policy of a negotiation. -/
inductive NegotiationTransport
  | auto
  | direct
  | tmuxPassthrough
  deriving DecidableEq

/-- The arguments of a negotiation. -/
structure PixelNegotiationArgs where
  timeoutMs : UInt64
  maxResponseBytes : ℕ
  tty : Bytes
  transport : NegotiationTransport
  transportTimeoutMs : UInt64

/-- Everything a negotiation is told by its environment. -/
structure PixelEnvironment where
  tmux : Bool
  processId : UInt32
  kgp : ProbeEnvironment
  sixel : ProbeEnvironment

def resolvedNegotiationTransport (requested : NegotiationTransport) (tmuxPresent : Bool) :
    TransportKind :=
  match requested with
  | .auto => if tmuxPresent then .tmuxPassthrough else .direct
  | .direct => .direct
  | .tmuxPassthrough => .tmuxPassthrough

def negotiationProbeArgs (args : PixelNegotiationArgs) (tmuxPresent : Bool) : TtyProbeArgs :=
  { timeoutMs := args.timeoutMs
    maxResponseBytes := args.maxResponseBytes
    tty := args.tty
    transport := resolvedNegotiationTransport args.transport tmuxPresent
    transportTimeoutMs := args.transportTimeoutMs }

/-- **Probe KGP, then Sixel**, and negotiate. -/
def negotiatePixel (b64 : Base64.Codec) (environment : PixelEnvironment)
    (args : PixelNegotiationArgs) : Tty CapabilityNegotiationV1 := do
  let common := negotiationProbeArgs args environment.tmux
  let kgp ← kgpReceipt b64 environment.kgp ⟨imageNumberOf environment.processId, common⟩
  let sixel ← sixelReceipt b64 environment.sixel common
  pure (negotiateCapabilitiesV1 [kgp, sixel])

section Negotiation

variable {b64 : Base64.Codec} {environment : PixelEnvironment} {args : PixelNegotiationArgs}
  {ops : List TtyOp} {n : CapabilityNegotiationV1}

/-- **What a negotiation emits**: that of the receipts of the two probes. -/
theorem negotiatePixel_returns (h : (negotiatePixel b64 environment args).Returns ops n) :
    ∃ kgpOps kgp sixelOps sixel,
      (kgpReceipt b64 environment.kgp ⟨imageNumberOf environment.processId,
        negotiationProbeArgs args environment.tmux⟩).Returns kgpOps kgp ∧
      (sixelReceipt b64 environment.sixel
        (negotiationProbeArgs args environment.tmux)).Returns sixelOps sixel ∧
      ops = kgpOps ++ sixelOps ∧ n = negotiateCapabilitiesV1 [kgp, sixel] := by
  obtain ⟨kgpOps, kgp, _, hkgp, hrest, rfl⟩ := Traced.bind_returns_iff.1 h
  obtain ⟨sixelOps, sixel, _, hsixel, hreturn, rfl⟩ := Traced.bind_returns_iff.1 hrest
  obtain ⟨rfl, rfl⟩ := Traced.pure_returns_iff.1 hreturn
  exact ⟨kgpOps, kgp, sixelOps, sixel, hkgp, hsixel, by rw [List.append_nil], rfl⟩

/-- The selection of two receipts. -/
theorem selection_pair (kgp sixel : ProbeReceiptV1) :
    (negotiateCapabilitiesV1 [kgp, sixel]).selection =
      if receiptIsEligible kgp then .selected 0 kgp.capability kgp.adapter
      else if receiptIsEligible sixel then .selected 1 sixel.capability sixel.adapter
      else .noEligibleCandidate := by
  rw [negotiateCapabilitiesV1_eq]
  dsimp only
  rw [firstEligible_candidatesFrom_cons, firstEligible_candidatesFrom_cons]
  split_ifs <;> rfl

end Negotiation

/-! ### How a negotiation is read -/

section Documents

variable {b64 : Base64.Codec} {receipts : List ProbeReceiptV1}

/-- The receipts that are embedded in the document of a negotiation. -/
theorem embeddedReceipts_serialize (n : CapabilityNegotiationV1) :
    ConsumeNegotiation.embeddedReceipts n.serialize = some (n.candidates.map (·.receipt)) := by
  have hcandidates : n.serialize.get "candidates" =
      .array (n.candidates.map NegotiationCandidateV1.serialize) := rfl
  rw [ConsumeNegotiation.embeddedReceipts, hcandidates, Json.list_eq_some_iff,
    List.forall₂_map_left_iff, List.forall₂_map_right_iff, List.forall₂_same]
  exact fun candidate _ => ProbeReceiptV1.format.read_write candidate.receipt

/-- The document of a negotiation names it. -/
theorem names_serialize (float : ℚ → WithBot (WithTop ℚ)) (n : CapabilityNegotiationV1) :
    ConsumeNegotiation.Names float n.serialize n where
  candidates := by
    have hitems : (n.serialize.get "candidates").items =
        n.candidates.map NegotiationCandidateV1.serialize := rfl
    rw [hitems, List.forall₂_map_left_iff, List.forall₂_same]
    exact fun candidate _ => ⟨⟨.natural candidate.preference.toNat, rfl, rfl⟩, rfl⟩
  selection := by
    have hselection : n.serialize.get "selection" = n.selection.serialize := rfl
    rw [hselection]
    cases n.selection with
    | noEligibleCandidate => exact rfl
    | selected preference capability adapter =>
        exact ⟨rfl, ⟨.natural preference.toNat, rfl, rfl⟩,
          CapabilityId.format.read_write capability, AdapterIdentity.format.read_write adapter⟩

/-- A selection of no candidate is written without further members. -/
theorem tidy_serialize (n : CapabilityNegotiationV1) : ConsumeNegotiation.Tidy n.serialize := by
  have hselection : n.serialize.get "selection" = n.selection.serialize := rfl
  rw [ConsumeNegotiation.Tidy, hselection]
  cases n.selection with
  | noEligibleCandidate => exact fun _ => rfl
  | selected preference capability adapter =>
      intro hstate
      have hselected : (Document.string "selected") = .string "no_eligible_candidate" := hstate
      exact absurd (Document.string.inj hselected) (by decide)

/-- **The validator and the consumer read the selection that was made**: for every list of valid
receipts, the document that is read in what is written of their negotiation conforms to the schema,
the validator reads it as this negotiation, and the consumer returns the selection.  A list in
memory has fewer than `2 ^ 64` items. -/
theorem negotiations_read_alike (json : JsonLibrary) (b64 : Base64.Codec)
    (float : ℚ → WithBot (WithTop ℚ)) (receipts : List ProbeReceiptV1) (pretty : Bool)
    (hvalid : ∀ receipt ∈ receipts, receipt.validate b64 = .ok ())
    (hlength : receipts.length ≤ 2 ^ 64) :
    json.fromSlice (json.serializedJson (negotiateCapabilitiesV1 receipts).serialize pretty) =
        some (negotiateCapabilitiesV1 receipts).serialize ∧
      CapabilityNegotiationV1.jsonSchema.accepts (negotiateCapabilitiesV1 receipts).serialize =
        true ∧
      (∀ n, CapabilityNegotiationV1.deserialize b64 (negotiateCapabilitiesV1 receipts).serialize =
        some n ↔ n = negotiateCapabilitiesV1 receipts) ∧
      ∀ selection, ConsumeNegotiation.validateNegotiation float
          (negotiateCapabilitiesV1 receipts).serialize = .ok selection ↔
        selection = (negotiateCapabilitiesV1 receipts).selection.serialize := by
  have hread := CapabilityNegotiationV1.roundTrip.read_write (negotiateCapabilitiesV1 receipts)
  have hschema : (negotiateCapabilitiesV1 receipts).schema = CAPABILITY_NEGOTIATION_SCHEMA_V1 := rfl
  have hconforms := CapabilityNegotiationV1.accepts_serialize hschema
  have hembedded := embeddedReceipts_serialize (negotiateCapabilitiesV1 receipts)
  rw [negotiateCapabilitiesV1_eq, map_receipt_candidatesFrom, ← negotiateCapabilitiesV1_eq]
    at hembedded
  have hwithin := Contract.within_serialize (.negotiation (negotiateCapabilitiesV1 receipts))
  refine ⟨json.fromSlice_serializedJson hwithin pretty, hconforms, fun n => ?_, fun selection => ?_⟩
  · rw [CapabilityNegotiationV1.deserialize, hread]
    simp only [Option.bind_eq_bind, Option.bind_some, validate_negotiateCapabilitiesV1.2 hvalid,
      Option.some.injEq]
    exact eq_comm
  · rw [ConsumeNegotiation.validateNegotiation_iff float selection hconforms hembedded hvalid
      hlength]
    exact and_iff_left ⟨names_serialize float _, tidy_serialize _⟩

/-- The document of a negotiation over an eligible and an ineligible receipt. -/
theorem negotiations_read_alike_two :
    let receipts := [bareReceipt "first" .unknown .inconclusive .unknown,
      bareReceipt "second" .available .conformant .ready]
    ConsumeNegotiation.validateNegotiation (fun value => (value : WithTop ℚ))
        (negotiateCapabilitiesV1 receipts).serialize =
      .ok (negotiateCapabilitiesV1 receipts).selection.serialize := by
  intro receipts
  have hvalid : ∀ receipt ∈ receipts, receipt.validate Base64.standard = .ok () :=
    List.forall_mem_cons.2 ⟨rfl, List.forall_mem_singleton.2 rfl⟩
  exact ((negotiations_read_alike parsedJson Base64.standard (fun value => (value : WithTop ℚ))
    receipts true hvalid (by decide)).2.2.2 _).2 rfl

end Documents

/-! ### What the terminal has sent -/

namespace Kgp

/-- **A stream confirms a query**: the first reply that names the identifier reports success, there
is no barrier before it, and there is one behind it. -/
def Confirms (correlationId : UInt32) (frames : List (ℕ × Frame)) : Prop :=
  ∃ before reply after, frames = before ++ reply :: after ∧
    (∀ earlier ∈ before, ¬ earlier.2.Names correlationId ∧ ¬ earlier.2.IsBarrier) ∧
    reply.2.Names correlationId ∧ reply.2.ReportsOk ∧ ∃ later ∈ after, later.2.IsBarrier

/-- A reply is not a barrier. -/
theorem Frame.not_isBarrier {frame : Frame} {correlationId : UInt32}
    (h : frame.Names correlationId) : ¬ frame.IsBarrier := by
  cases frame with
  | reply body unterminated => exact id
  | barrier answer => exact absurd h id

/-- The first barrier that is observed is the first frame that is one. -/
theorem find?_isBarrier_items_iff {b64 : Base64.Codec} {sequence : UInt32}
    {frames : List (ℕ × Frame)} {observed : ObservedEvent} :
    (Lexing.items (observedFrame b64) saturatingSucc sequence frames).find?
      ObservedEvent.isBarrier = some observed ↔
      ∃ before entry after, frames = before ++ entry :: after ∧
        (∀ earlier ∈ before, ¬ earlier.2.IsBarrier) ∧ entry.2.IsBarrier ∧
        observed = observedFrame b64 (saturatingSucc^[before.length] sequence) entry.1 entry.2 :=
  Lexing.find?_items_iff fun sequence offset frame =>
    @Frame.isBarrier_iff b64 sequence offset frame

/-- **What is assessed conformant** is what confirms the query. -/
theorem conformant_of_lexed_iff {b64 : Base64.Codec} {input : Bytes} {correlationId : UInt32}
    {frames : List (ℕ × Frame)} (h : Lexing.Lexed lexicon input 0 frames) :
    ((parseExchange b64 input correlationId).assessment.availability = .available ∧
      (parseExchange b64 input correlationId).assessment.conformance = .conformant) ↔
      Confirms correlationId frames := by
  simp only [parseExchange, observe_of_lexed h, conformant_iff, observedFrames,
    firstMatching_items_iff, find?_isBarrier_items_iff]
  constructor
  · rintro ⟨_, _, ⟨before, reply, after, rfl, hbefore, hnames, rfl⟩,
      ⟨before', barrier, after', heq, hbefore', hbarrier, rfl⟩, hok, hlt⟩
    obtain ⟨hnone, hsome⟩ := (h.first_after_iff (Frame.not_isBarrier hnames)).1
      ⟨before', barrier, after', heq, hbefore', hbarrier, hlt⟩
    exact ⟨before, reply, after, rfl, fun earlier hmem =>
      ⟨hbefore earlier hmem, hnone earlier hmem⟩, hnames, (Frame.reportsOk_iff hnames).1 hok, hsome⟩
  · rintro ⟨before, reply, after, rfl, hbefore, hnames, hok, hsome⟩
    obtain ⟨before', barrier, after', heq, hbefore', hbarrier, hlt⟩ :=
      (h.first_after_iff (Frame.not_isBarrier hnames)).2
        ⟨fun earlier hmem => (hbefore earlier hmem).2, hsome⟩
    exact ⟨_, _, ⟨before, reply, after, rfl, fun earlier hmem => (hbefore earlier hmem).1, hnames,
      rfl⟩, ⟨before', barrier, after', heq, hbefore', hbarrier, rfl⟩,
      (Frame.reportsOk_iff hnames).2 hok, hlt⟩

end Kgp

namespace Sixel

/-- A device attributes reply advertises Sixel behind its device level. -/
def Advertises (replies : List (ℕ × Da1.Reply)) : Prop :=
  ∃ reply ∈ replies, SIXEL_DA1_EXTENSION ∈ reply.2.parameters.tail

theorem advertises_iff {reply : Da1.Reply} {b64 : Base64.Codec} {offset : ℕ} {extension : UInt16} :
    (reply.response b64 offset).advertises extension = true ↔
      extension ∈ reply.parameters.tail := by
  have hpositive := List.length_pos_iff.2 reply.some_parameter
  rw [Da1.Da1Response.advertises, Da1.Reply.response, Slices.sliceFrom?,
    if_pos (by exact hpositive)]
  simp

/-- **What is assessed conformant** is what advertises Sixel. -/
theorem conformant_of_lexed_iff {b64 : Base64.Codec} {input : Bytes}
    {replies : List (ℕ × Da1.Reply)} (h : Lexing.Lexed Da1.lexicon input 0 replies) :
    ((parseExchange b64 input).assessment.availability = .available ∧
      (parseExchange b64 input).assessment.conformance = .conformant) ↔ Advertises replies := by
  have hscan : Da1.parseResponses b64 input =
      replies.map fun entry => entry.2.response b64 entry.1 := by
    have hitems : Da1.parseResponses b64 input =
        Lexing.items (fun _ offset reply => reply.response b64 offset) id () replies :=
      Lexing.scanFrom_of_lexed (Da1.recognizes b64 input) h ()
    rw [hitems, Lexing.items_unit]
  have hadvertised : ((Da1.parseResponses b64 input).any fun response =>
      response.advertises SIXEL_DA1_EXTENSION) = true ↔ Advertises replies := by
    rw [hscan, List.any_map, List.any_eq_true]
    simp only [Function.comp_apply, advertises_iff, Advertises]
  rw [← hadvertised, parseExchange]
  dsimp only
  split_ifs with h₁ h₂ <;> simp_all

end Sixel

/-! ### Whether the terminal is reached -/

section Evidence

variable {b64 : Base64.Codec} {args : TtyProbeArgs} {ops : List TtyOp}

/-- **The terminal is reached**: under tmux the last readiness exchange has a device attributes
reply. -/
def Reached (transport : TransportKind) (evidence : TransportEvidence) : Prop :=
  transport = .tmuxPassthrough → ∃ earlier last,
    evidence.preparationExchanges = earlier ++ [last] ∧ HasDa1Event last

/-- The attempts say whether the transport is ready. -/
theorem readiness_of_prepareLoop {deadline : ℕ} {before exchanges : List WireExchange}
    {attempts : List Attempt} {readiness : TransportReadiness}
    (h : (prepareLoop b64 args (Text.asBytes "\x1b[c") Tmux.buildReadinessQuery deadline before
      attempts).Returns ops (exchanges, readiness)) : readiness ≠ .notRequired := by
  induction attempts generalizing before ops with
  | nil => exact absurd h Traced.not_pending_returns
  | cons attempt attempts ih =>
      rw [prepareLoop] at h
      dsimp only at h
      split_ifs at h with hremaining
      · obtain ⟨-, heq⟩ := Traced.pure_returns_iff.1 h
        rw [← (Prod.mk.inj heq).2]
        exact TransportReadiness.noConfusion
      · obtain ⟨ops₁, live, ops₂, -, hrest, -⟩ := Traced.bind_returns_iff.1 h
        split_ifs at hrest with hseen
        · obtain ⟨-, heq⟩ := Traced.pure_returns_iff.1 hrest
          rw [← (Prod.mk.inj heq).2]
          exact TransportReadiness.noConfusion
        · exact ih hrest

/-- **A prepared transport may be used** when the terminal is reached. -/
theorem usable_iff_reached {environment : ProbeEnvironment} {evidence : TransportEvidence}
    (h : (prepareTransport b64 environment args).Returns ops evidence) :
    (evidence.readiness = .notRequired ∨ evidence.readiness = .ready) ↔
      Reached args.transport evidence := by
  have hagrees := readinessAgrees_of_attempted (prepareTransport_returns h)
  rw [prepareTransport] at h
  split_ifs at h with hdirect hzero
  · obtain ⟨-, rfl⟩ := Traced.pure_returns_iff.1 h
    refine iff_of_true (Or.inl rfl) fun htmux => ?_
    rw [hdirect] at htmux
    cases htmux
  · exact absurd h Traced.not_fail_returns
  · cases hdeadline :
        checkedAdd environment.prepareStarted (fromMillis args.transportTimeoutMs.toNat) with
    | none => simp [hdeadline] at h
    | some deadline =>
        simp only [hdeadline, Traced.bind_returns_iff, Traced.pure_returns_iff] at h
        obtain ⟨_, ⟨exchanges, readiness⟩, _, hloop, ⟨-, rfl⟩, -⟩ := h
        have hrequired := readiness_of_prepareLoop hloop
        have htmux : args.transport = .tmuxPassthrough := by
          cases hkind : args.transport with
          | direct => exact absurd hkind hdirect
          | tmuxPassthrough => rfl
        rw [or_iff_right hrequired, hagrees.1, Reached]
        exact ⟨fun hlast _ => hlast, fun hreached => hreached htmux⟩

/-- **A receipt shows that the terminal supports KGP**: the terminal is reached, and its response
confirms the query. -/
def ShowsKgp (b64 : Base64.Codec) (transport : TransportKind) (correlationId : UInt32)
    (receipt : ProbeReceiptV1) : Prop :=
  Reached transport receipt.context.transport ∧ ∃ response frames,
    b64.decode receipt.exchange.responseBase64 = some response ∧
      Lexing.Lexed Kgp.lexicon response 0 frames ∧ Kgp.Confirms correlationId frames

/-- **A receipt shows that the terminal supports Sixel**: the terminal is reached, and its response
advertises Sixel. -/
def ShowsSixel (b64 : Base64.Codec) (transport : TransportKind) (receipt : ProbeReceiptV1) : Prop :=
  Reached transport receipt.context.transport ∧ ∃ response replies,
    b64.decode receipt.exchange.responseBase64 = some response ∧
      Lexing.Lexed Da1.lexicon response 0 replies ∧ Sixel.Advertises replies

theorem receiptIsEligible_iff {receipt : ProbeReceiptV1} : receiptIsEligible receipt = true ↔
    (receipt.context.transport.readiness = .notRequired ∨
      receipt.context.transport.readiness = .ready) ∧
    receipt.assessment.availability = .available ∧
      receipt.assessment.conformance = .conformant := by
  simp only [receiptIsEligible, Bool.and_eq_true, Bool.or_eq_true, decide_eq_true_eq]
  exact and_comm

/-- **When the receipt of the KGP probe is eligible.** -/
theorem eligible_kgp_iff {environment : ProbeEnvironment} {args : KgpProbeArgs}
    {receipt : ProbeReceiptV1} (h : (kgpReceipt b64 environment args).Returns ops receipt) :
    receiptIsEligible receipt = true ↔
      ShowsKgp b64 args.common.transport args.correlationId receipt := by
  obtain ⟨request, _, _, live, -, htransport, -, -, -, hexchange, hassessment⟩ :=
    kgpReceipt_returns h
  have hresponse : b64.decode receipt.exchange.responseBase64 = some live.response := by
    rw [hexchange]
    exact b64.decode_encode live.response
  obtain ⟨frames, hframes⟩ := Lexing.Lexed.exists_lexed Kgp.lexicon live.response 0
  rw [receiptIsEligible_iff, usable_iff_reached htransport, hassessment, ShowsKgp, hresponse]
  refine and_congr_right fun _ => ?_
  constructor
  · intro hconformant
    exact ⟨_, frames, rfl, hframes, (Kgp.conformant_of_lexed_iff hframes).1 hconformant⟩
  · rintro ⟨response, frames', hsome, hframes', hconfirms⟩
    obtain rfl := Option.some.inj hsome
    exact (Kgp.conformant_of_lexed_iff hframes').2 hconfirms

/-- **When the receipt of the Sixel probe is eligible.** -/
theorem eligible_sixel_iff {environment : ProbeEnvironment} {receipt : ProbeReceiptV1}
    (h : (sixelReceipt b64 environment args).Returns ops receipt) :
    receiptIsEligible receipt = true ↔ ShowsSixel b64 args.transport receipt := by
  obtain ⟨_, _, live, htransport, -, -, -, hexchange, hassessment⟩ := sixelReceipt_returns h
  have hresponse : b64.decode receipt.exchange.responseBase64 = some live.response := by
    rw [hexchange]
    exact b64.decode_encode live.response
  obtain ⟨replies, hreplies⟩ := Lexing.Lexed.exists_lexed Da1.lexicon live.response 0
  rw [receiptIsEligible_iff, usable_iff_reached htransport, hassessment, ShowsSixel, hresponse]
  refine and_congr_right fun _ => ?_
  constructor
  · intro hconformant
    exact ⟨_, replies, rfl, hreplies, (Sixel.conformant_of_lexed_iff hreplies).1 hconformant⟩
  · rintro ⟨response, replies', hsome, hreplies', hadvertises⟩
    obtain rfl := Option.some.inj hsome
    exact (Sixel.conformant_of_lexed_iff hreplies').2 hadvertises

/-- The identities in the receipt of the KGP probe. -/
theorem identities_kgpReceipt {environment : ProbeEnvironment} {args : KgpProbeArgs}
    {receipt : ProbeReceiptV1} (h : (kgpReceipt b64 environment args).Returns ops receipt) :
    receipt.capability = Kgp.capabilityId ∧ receipt.adapter = Kgp.adapterIdentity := by
  simp only [kgpReceipt, Traced.bind_returns_iff, Traced.pure_returns_iff] at h
  obtain ⟨_, _, _, -, ⟨_, _, _, -, ⟨_, _, _, -, ⟨_, _, _, -, ⟨-, rfl⟩, -⟩, -⟩, -⟩, -⟩ := h
  exact ⟨rfl, rfl⟩

/-- The identities in the receipt of the Sixel probe. -/
theorem identities_sixelReceipt {environment : ProbeEnvironment} {receipt : ProbeReceiptV1}
    (h : (sixelReceipt b64 environment args).Returns ops receipt) :
    receipt.capability = Sixel.capabilityId ∧ receipt.adapter = Sixel.adapterIdentity := by
  simp only [sixelReceipt, Traced.bind_returns_iff, Traced.pure_returns_iff] at h
  obtain ⟨_, _, _, -, ⟨_, _, _, -, ⟨_, _, _, -, ⟨-, rfl⟩, -⟩, -⟩, -⟩ := h
  exact ⟨rfl, rfl⟩

end Evidence

/-- **What the terminal has sent when a renderer is selected**: KGP is selected exactly when the
first probe shows it, and Sixel exactly when that fails and the second probe shows it. -/
theorem pixel_selection_evidence (b64 : Base64.Codec) (environment : PixelEnvironment)
    (args : PixelNegotiationArgs) (ops : List TtyOp) (n : CapabilityNegotiationV1)
    (h : (negotiatePixel b64 environment args).Returns ops n) :
    ∃ kgp sixel, n.candidates.map (·.receipt) = [kgp, sixel] ∧
      let transport := resolvedNegotiationTransport args.transport environment.tmux
      let correlationId := imageNumberOf environment.processId
      (n.selection = .selected 0 Kgp.capabilityId Kgp.adapterIdentity ↔
        ShowsKgp b64 transport correlationId kgp) ∧
      (n.selection = .selected 1 Sixel.capabilityId Sixel.adapterIdentity ↔
        ¬ ShowsKgp b64 transport correlationId kgp ∧ ShowsSixel b64 transport sixel) ∧
      (n.selection = .noEligibleCandidate ↔
        ¬ ShowsKgp b64 transport correlationId kgp ∧ ¬ ShowsSixel b64 transport sixel) := by
  obtain ⟨_, kgp, _, sixel, hkgp, hsixel, -, rfl⟩ := negotiatePixel_returns h
  refine ⟨kgp, sixel, map_receipt_candidatesFrom 0 [kgp, sixel], ?_⟩
  obtain ⟨hcapability, hadapter⟩ := identities_kgpReceipt hkgp
  obtain ⟨hcapability', hadapter'⟩ := identities_sixelReceipt hsixel
  have hshows := eligible_kgp_iff hkgp
  have hshows' := eligible_sixel_iff hsixel
  dsimp only [negotiationProbeArgs] at hshows hshows'
  dsimp only
  rw [← hshows, ← hshows', selection_pair, hcapability, hadapter, hcapability', hadapter']
  cases receiptIsEligible kgp <;> cases receiptIsEligible sixel <;> simp

/-- The sample environment for both probes. -/
def samplePixelEnvironment : PixelEnvironment := ⟨true, 31, sampleEnvironment, sampleEnvironment⟩

/-- The default arguments. -/
def samplePixelArgs : PixelNegotiationArgs := ⟨750, 65536, Text.asBytes "/dev/tty", .auto, 1500⟩

/-- A terminal that confirms the query is selected for it. -/
theorem pixel_selection_evidence_sample : ∃ ops n kgp,
    (negotiatePixel Base64.standard samplePixelEnvironment samplePixelArgs).Returns ops n ∧
      n.selection = .selected 0 Kgp.capabilityId Kgp.adapterIdentity ∧
      ShowsKgp Base64.standard .tmuxPassthrough 31 kgp := by
  obtain ⟨ops, n, h, htest⟩ := Traced.exists_returns
    (negotiatePixel Base64.standard samplePixelEnvironment samplePixelArgs)
    (fun n => n.selection = .selected 0 Kgp.capabilityId Kgp.adapterIdentity) (by rfl)
  obtain ⟨kgp, sixel, -, hkgp, -⟩ :=
    pixel_selection_evidence Base64.standard samplePixelEnvironment samplePixelArgs ops n h
  have hselection := of_decide_eq_true htest
  exact ⟨ops, n, kgp, h, hselection, hkgp.1 hselection⟩

/-! ### The preview -/

/-- The negotiation with the options of a preview. -/
def PreviewArgs.negotiation (args : PreviewArgs) : PixelNegotiationArgs :=
  { timeoutMs := args.timeoutMs
    maxResponseBytes := DEFAULT_MAX_RESPONSE_BYTES
    tty := args.screen.tty
    transport := match args.transport with
      | .auto => .auto
      | .direct => .direct
      | .tmuxPassthrough => .tmuxPassthrough
    transportTimeoutMs := args.transportTimeoutMs }

/-- A negotiation in the environment of a preview. -/
def PreviewEnvironment.negotiation (environment : PreviewEnvironment) (args : PreviewArgs) :
    PixelEnvironment :=
  ⟨environment.tmux, args.screen.processId, environment.kgp, environment.sixel⟩

section Preview

variable {b64 : Base64.Codec} {environment : PreviewEnvironment} {args : PreviewArgs}
  {ops : List TtyOp} {n : CapabilityNegotiationV1}

/-- The probes of the negotiation are those of the preview. -/
theorem negotiationProbeArgs_negotiation (args : PreviewArgs) (tmux : Bool) :
    negotiationProbeArgs args.negotiation tmux =
      commonProbeArgs args (resolvedTransport args.transport tmux) := by
  obtain ⟨path, backend, transport, timeoutMs, transportTimeoutMs, geometryTimeoutMs, screen⟩ :=
    args
  cases transport <;> rfl

/-- What the probes of the preview do where the negotiation returns. -/
theorem probes_of_negotiation
    (h : (negotiatePixel b64 (environment.negotiation args) args.negotiation).Returns ops n) :
    ∃ kgpOps kgp sixelOps sixel,
      (probeKgp b64 environment args (resolvedTransport args.transport environment.tmux)).Returns
        kgpOps kgp ∧
      (probeSixel b64 environment args (resolvedTransport args.transport environment.tmux)).Returns
        sixelOps sixel ∧
      ops = kgpOps ++ sixelOps ∧ n = negotiateCapabilitiesV1 [kgp, sixel] := by
  have hreturns := negotiatePixel_returns h
  simp only [PreviewEnvironment.negotiation, negotiationProbeArgs_negotiation] at hreturns
  exact hreturns

/-- What a preview selects where both of its probes return. -/
theorem selectRenderer_auto {transport : TransportKind} {kgpOps sixelOps : List TtyOp}
    {kgp sixel : ProbeReceiptV1} (hauto : args.backend = .auto)
    (hkgp : (probeKgp b64 environment args transport).Returns kgpOps kgp)
    (hsixel : (probeSixel b64 environment args transport).Returns sixelOps sixel) :
    selectRenderer b64 environment args transport =
      if receiptIsEligible kgp then ⟨kgpOps, some (.ok .kgp)⟩
      else if receiptIsEligible sixel then ⟨kgpOps ++ sixelOps, some (.ok .sixel)⟩
      else ⟨kgpOps ++ sixelOps,
        some (.error (.noPixelRenderer (receiptSummary kgp) (receiptSummary sixel)))⟩ := by
  rw [Traced.Returns] at hkgp hsixel
  simp only [selectRenderer, hauto, hkgp, hsixel, bind, Traced.andThen]
  split_ifs <;> simp [pure, Traced.fail]

end Preview

/-- **A preview uses what the negotiation selects**, and stops at the first renderer that it may
use.  If the negotiation with the same options and the same answers of the terminal selects KGP, the
preview does the operations of its first probe and uses KGP; if it selects Sixel, the preview does
them all and uses Sixel; if it selects none, the preview does them all and fails, with a summary of
both receipts. -/
theorem preview_follows_negotiation (b64 : Base64.Codec) (environment : PreviewEnvironment)
    (args : PreviewArgs) (ops : List TtyOp) (n : CapabilityNegotiationV1)
    (hauto : args.backend = .auto)
    (h : (negotiatePixel b64 (environment.negotiation args) args.negotiation).Returns ops n) :
    let preview := selectRenderer b64 environment args
      (resolvedTransport args.transport environment.tmux)
    (∀ seen, preview.Returns seen .kgp → seen <+: ops) ∧
    ((∃ seen, preview.Returns seen .kgp) ↔
      n.selection = .selected 0 Kgp.capabilityId Kgp.adapterIdentity) ∧
    (preview.Returns ops .sixel ↔
      n.selection = .selected 1 Sixel.capabilityId Sixel.adapterIdentity) ∧
    ((∃ kgp sixel, n.candidates.map (·.receipt) = [kgp, sixel] ∧
        preview = ⟨ops,
          some (.error (.noPixelRenderer (receiptSummary kgp) (receiptSummary sixel)))⟩) ↔
      n.selection = .noEligibleCandidate) := by
  obtain ⟨kgpOps, kgp, sixelOps, sixel, hkgp, hsixel, rfl, rfl⟩ := probes_of_negotiation h
  obtain ⟨hcapability, hadapter⟩ := identities_kgpReceipt hkgp
  obtain ⟨hcapability', hadapter'⟩ := identities_sixelReceipt hsixel
  have hmap : (negotiateCapabilitiesV1 [kgp, sixel]).candidates.map (·.receipt) = [kgp, sixel] :=
    map_receipt_candidatesFrom 0 [kgp, sixel]
  dsimp only
  rw [selection_pair, hcapability, hadapter, hcapability', hadapter', hmap,
    selectRenderer_auto hauto hkgp hsixel]
  by_cases heligible : receiptIsEligible kgp = true
  · simp [heligible, Traced.Returns]
  · by_cases heligible' : receiptIsEligible sixel = true
    · simp [heligible, heligible', Traced.Returns]
    · simp [heligible, heligible', Traced.Returns]

/-- The default arguments of a preview. -/
def samplePreviewArgs : PreviewArgs where
  path := Text.asBytes "/a"
  backend := .auto
  transport := .auto
  timeoutMs := 750
  transportTimeoutMs := 1500
  geometryTimeoutMs := 500
  screen := ⟨Text.asBytes "/dev/tty", none, 31⟩

/-- A preview in a terminal that confirms the query. -/
def samplePreviewEnvironment : PreviewEnvironment where
  opened := .ok ()
  terminalSize := none
  windowSize := none
  geometry := sampleEnvironment.session
  kgp := sampleEnvironment
  sixel := sampleEnvironment
  tmux := true

/-- The preview uses KGP in a terminal that confirms the query. -/
theorem preview_follows_negotiation_sample : ∃ ops n seen,
    (negotiatePixel Base64.standard (samplePreviewEnvironment.negotiation samplePreviewArgs)
      samplePreviewArgs.negotiation).Returns ops n ∧
      n.selection = .selected 0 Kgp.capabilityId Kgp.adapterIdentity ∧
      (selectRenderer Base64.standard samplePreviewEnvironment samplePreviewArgs
        .tmuxPassthrough).Returns seen .kgp ∧ seen <+: ops := by
  obtain ⟨ops, n, h, htest⟩ := Traced.exists_returns
    (negotiatePixel Base64.standard (samplePreviewEnvironment.negotiation samplePreviewArgs)
      samplePreviewArgs.negotiation)
    (fun n => n.selection = .selected 0 Kgp.capabilityId Kgp.adapterIdentity) (by rfl)
  have hselection := of_decide_eq_true htest
  obtain ⟨hbefore, hkgp, -⟩ := preview_follows_negotiation Base64.standard samplePreviewEnvironment
    samplePreviewArgs ops n rfl h
  obtain ⟨seen, hseen⟩ := hkgp.2 hselection
  exact ⟨ops, n, seen, h, hselection, hseen, hbefore seen hseen⟩

end TermInterop
