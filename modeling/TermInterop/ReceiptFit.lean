/-
When an emitted receipt can be read back.

A receipt of a direct probe is a fixed frame, the texts of its context, one exchange and one
assessment.  Its length is thus bounded by the texts, the response and the events.  A validator
reads a document of a mebibyte at most.

The replies of a Sixel probe all come with the last read, so that their events always fit.  A KGP
probe collects replies until it sees a barrier, and a reply of five bytes becomes an event of more
than a hundred: a terminal that only sends such replies fills a receipt that no validator reads.

Main definitions:

* `TermInterop.floodSegment`, `TermInterop.floodEnvironment` — such a terminal.

Main results:

* `TermInterop.length_directReceipt_le` — how long the receipt of a direct probe is;
* `TermInterop.exchangeLoop_of_reads` — a loop that is never stopped collects everything;
* `TermInterop.emitted_receipts_fit` — **how long an emitted receipt is**, and when a validator
  reads it;
* `TermInterop.flooded_receipt_rejected` — one that it does not read.
-/

import TermInterop.EmittedReceipts
import TermInterop.PreviewSetup
import TermInterop.ReceiptSize
import TermInterop.ReplyStream

set_option relaxedAutoImplicit false
set_option autoImplicit false

namespace TermInterop

/-! ### The receipt of a direct probe -/

/-- The context of a direct probe. -/
def directContext (varOs : String → Option Bytes) (tty : Bytes) : ProbeContext :=
  { ttyEndpoint := String.ofList (Utf8Lossy.decode tty)
    transport := ⟨directTransportIdentity, .notRequired, []⟩
    environmentHints := environmentHints varOs
    topology := .unknown }

/-- **How long the context of a direct probe is.** -/
theorem length_directContext_le (varOs : String → Option Bytes) (tty : Bytes) :
    (directContext varOs tty).toVec.length ≤ 631 + 6 * stringsLength varOs tty := by
  have htransport : (⟨directTransportIdentity, .notRequired, []⟩ : TransportEvidence).toVec.length =
      105 := by rfl
  have htopology : TopologyObservation.unknown.toVec.length = 19 := by rfl
  have htty := escapedLength_decode_le tty
  have hhints := sum_environmentHints_le varOs
  have hsum : (((environmentHints varOs).map EnvironmentHint.toVec).map List.length).sum +
      (environmentHints varOs).length =
        ((environmentHints varOs).map fun hint => hint.toVec.length + 1).sum := by
    induction environmentHints varOs with
    | nil => rfl
    | cons hint hints ih =>
        simp only [List.map_cons, List.sum_cons, List.length_cons] at ih ⊢
        omega
  have harray := Json.length_array_le ((environmentHints varOs).map EnvironmentHint.toVec)
  rw [List.length_map] at harray
  rw [ProbeContext.length_toVec, stringsLength]
  simp only [directContext, Json.length_string, htransport, htopology]
  omega

/-- **How long the receipt of a direct probe is**, by its exchange and its assessment. -/
theorem length_directReceipt_le {receipt : ProbeReceiptV1} {varOs : String → Option Bytes}
    {tty : Bytes} (hschema : receipt.schema = PROBE_RECEIPT_SCHEMA_V1)
    (hcapability : receipt.capability.toVec.length ≤ 133)
    (hadapter : receipt.adapter.toVec.length ≤ 51)
    (hcorrelation : (optionalVec CorrelationId.toVec receipt.correlation).length ≤ 55)
    (hcontext : receipt.context = directContext varOs tty) :
    receipt.toVec.length ≤ 1040 + 6 * stringsLength varOs tty + receipt.exchange.toVec.length +
      receipt.assessment.toVec.length := by
  have hname : (Json.string PROBE_RECEIPT_SCHEMA_V1).length = 39 := by rfl
  have hobserved := length_number_u64_le receipt.observedAtUnixMs
  have hdirect := length_directContext_le varOs tty
  rw [ProbeReceiptV1.length_toVec, hschema, hcontext, hname]
  omega

/-- What a direct transport prepares. -/
theorem prepareTransport_direct {b64 : Base64.Codec} {environment : ProbeEnvironment}
    {args : TtyProbeArgs} {transport : TransportEvidence} {ops : List TtyOp}
    (hdirect : args.transport = .direct)
    (h : (prepareTransport b64 environment args).Returns ops transport) :
    transport = ⟨directTransportIdentity, .notRequired, []⟩ := by
  rw [prepareTransport, if_pos hdirect, Traced.pure_returns_iff] at h
  exact h.2.symm

/-- The parts of a KGP receipt that are not evidence. -/
theorem kgpReceipt_identity {b64 : Base64.Codec} {environment : ProbeEnvironment}
    {args : KgpProbeArgs} {ops : List TtyOp} {receipt : ProbeReceiptV1}
    (hdirect : args.common.transport = .direct)
    (h : (kgpReceipt b64 environment args).Returns ops receipt) :
    receipt.capability = Kgp.capabilityId ∧ receipt.adapter = Kgp.adapterIdentity ∧
      receipt.correlation = some ⟨"org.kitty.image-id", Nat.repr args.correlationId.toNat⟩ ∧
      receipt.context = directContext environment.varOs args.common.tty := by
  simp only [kgpReceipt, Traced.bind_returns_iff, Traced.ofExcept_returns_iff,
    Traced.pure_returns_iff] at h
  obtain ⟨_, _, _, -, ⟨_, transport, _, htransport, ⟨_, _, _, -, ⟨_, _, _, -, ⟨-, rfl⟩, -⟩, -⟩, -⟩,
    -⟩ := h
  obtain rfl := prepareTransport_direct hdirect htransport
  exact ⟨rfl, rfl, rfl, rfl⟩

/-- The parts of a Sixel receipt that are not evidence. -/
theorem sixelReceipt_identity {b64 : Base64.Codec} {environment : ProbeEnvironment}
    {args : TtyProbeArgs} {ops : List TtyOp} {receipt : ProbeReceiptV1}
    (hdirect : args.transport = .direct)
    (h : (sixelReceipt b64 environment args).Returns ops receipt) :
    receipt.capability = Sixel.capabilityId ∧ receipt.adapter = Sixel.adapterIdentity ∧
      receipt.correlation = none ∧
      receipt.context = directContext environment.varOs args.tty := by
  simp only [sixelReceipt, Traced.bind_returns_iff, Traced.ofExcept_returns_iff,
    Traced.pure_returns_iff] at h
  obtain ⟨_, transport, _, htransport, ⟨_, _, _, -, ⟨_, _, _, -, ⟨-, rfl⟩, -⟩, -⟩, -⟩ := h
  obtain rfl := prepareTransport_direct hdirect htransport
  exact ⟨rfl, rfl, rfl, rfl⟩

/-- A query is short. -/
theorem length_buildQuery_le {correlationId : UInt32} {request : Bytes}
    (h : Kgp.buildQuery correlationId = .ok request) : request.length ≤ 46 := by
  rw [Kgp.buildQuery] at h
  split_ifs at h
  obtain rfl := Except.ok.inj h
  have hid : (Text.asBytes (Nat.repr correlationId.toNat)).length ≤ 10 := by
    rw [Text.length_asBytes_of_ascii fun c hc =>
      (Json.isPlainChar_of_isDigit (Text.isDigit_of_mem_repr hc)).1, Nat.toList_repr]
    exact (Nat.length_toDigits_le_iff (by decide) (by decide)).2
      (Nat.lt_of_lt_of_le correlationId.toNat_lt (by decide))
  have hbefore : (Text.asBytes "\x1b_Gi=").length = 5 := by rfl
  have hafter : (Text.asBytes ",s=1,v=1,a=q,t=d,f=24;AAAA\x1b\\").length = 28 := by rfl
  have hbarrier : (Text.asBytes "\x1b[c").length = 3 := by rfl
  simp only [Text.asBytes_append, List.length_append, hbefore, hafter, hbarrier]
  omega

/-- **How long a direct KGP receipt is.** -/
theorem length_kgpReceipt_le {environment : ProbeEnvironment} {args : KgpProbeArgs}
    {ops : List TtyOp} {receipt : ProbeReceiptV1} {response : Bytes}
    (hdirect : args.common.transport = .direct)
    (h : (kgpReceipt Base64.standard environment args).Returns ops receipt)
    (hresponse : receipt.exchange.responseBase64 = Base64.standard.encode response) :
    3 * (serializedJson receipt.toVec).length ≤
      5700 + 18 * stringsLength environment.varOs args.common.tty + 44 * response.length +
        755 * receipt.exchange.events.length := by
  obtain ⟨hcapability, hadapter, hcorrelation, hcontext⟩ := kgpReceipt_identity hdirect h
  obtain ⟨request, _, _, live, hrequest, -, -, -, hschema, hexchange, hassessment⟩ :=
    kgpReceipt_returns h
  obtain rfl : live.response = response := by
    rw [hexchange] at hresponse
    exact Base64.standard.encode_injective hresponse
  have hid : Json.escapedLength (Nat.repr args.correlationId.toNat) ≤ 10 :=
    escapedLength_repr_le (by decide) (Nat.lt_of_lt_of_le args.correlationId.toNat_lt (by decide))
  have hcorrelated : (optionalVec CorrelationId.toVec receipt.correlation).length ≤ 55 := by
    have hframe : Json.frame ["namespace", "value"] = 23 := by rfl
    have hnamespace : (Json.string "org.kitty.image-id").length = 20 := by rfl
    rw [hcorrelation, optionalVec, CorrelationId.toVec, Json.length_object]
    simp only [List.map_cons, List.map_nil, List.sum_cons, List.sum_nil, hframe, hnamespace]
    rw [Json.length_string]
    omega
  have hlength := length_directReceipt_le hschema
    (by rw [hcapability]; decide +kernel) (by rw [hadapter]; decide +kernel) hcorrelated hcontext
  have hquery := length_buildQuery_le hrequest
  have hwire : wireRequestOf args.common.transport request = request := by
    rw [hdirect, wireRequestOf]
  have hrecord := @length_wireExchange_le request
    (wireRequestOf args.common.transport request) live
    (Kgp.parseExchange Base64.standard live.response args.correlationId).events
  have hassess := @Kgp.length_assess_le live.response args.correlationId
  have hevents := Kgp.sum_observe_le live.response
  have hmap : (Kgp.parseExchange Base64.standard live.response args.correlationId).events =
      (Kgp.observe Base64.standard live.response).map Kgp.ObservedEvent.event := rfl
  have hcount : receipt.exchange.events.length =
      (Kgp.observe Base64.standard live.response).length := by
    rw [hexchange, wireExchange, hmap, List.length_map]
  rw [hwire, hmap, List.map_map] at hrecord
  rw [hcount, serializedJson, List.length_append, List.length_singleton]
  rw [hexchange, hwire, hmap, hassessment] at hlength
  simp only [Function.comp_def] at hrecord
  change _ ≤ _ + _ + (Kgp.assess (Kgp.observe Base64.standard live.response)
    args.correlationId).toVec.length at hlength
  omega

/-- **How long a direct Sixel receipt is.** -/
theorem length_sixelReceipt_le {environment : ProbeEnvironment} {args : TtyProbeArgs}
    {ops : List TtyOp} {receipt : ProbeReceiptV1} {response : Bytes}
    (hdirect : args.transport = .direct)
    (h : (sixelReceipt Base64.standard environment args).Returns ops receipt)
    (hresponse : receipt.exchange.responseBase64 = Base64.standard.encode response) :
    3 * (serializedJson receipt.toVec).length ≤
      5700 + 18 * stringsLength environment.varOs args.tty + 20 * response.length +
        779 * receipt.exchange.events.length := by
  obtain ⟨hcapability, hadapter, hcorrelation, hcontext⟩ := sixelReceipt_identity hdirect h
  obtain ⟨_, _, live, -, -, -, hschema, hexchange, hassessment⟩ := sixelReceipt_returns h
  obtain rfl : live.response = response := by
    rw [hexchange] at hresponse
    exact Base64.standard.encode_injective hresponse
  have hlength := length_directReceipt_le hschema (by rw [hcapability]; decide +kernel)
    (by rw [hadapter]; rfl) (by rw [hcorrelation]; decide) hcontext
  have hquery : Sixel.buildQuery.length = 3 := rfl
  have hwire : wireRequestOf args.transport Sixel.buildQuery = Sixel.buildQuery := by
    rw [hdirect, wireRequestOf]
  have hassess : (Sixel.parseExchange Base64.standard live.response).assessment.toVec.length ≤
      530 := by
    simp only [Sixel.parseExchange]
    split_ifs <;> decide +kernel
  have hmap : (Sixel.parseExchange Base64.standard live.response).events =
      enumerateEvents .capabilityReply (Da1.parseResponses Base64.standard live.response) := rfl
  have hevents := sum_enumerateEvents_le .capabilityReply live.response
  have hcount : receipt.exchange.events.length =
      (Da1.parseResponses Base64.standard live.response).length := by
    rw [hexchange, wireExchange, hmap, enumerateEvents, List.length_mapIdx]
  have hrecord := @length_wireExchange_le Sixel.buildQuery
    (wireRequestOf args.transport Sixel.buildQuery) live
    (Sixel.parseExchange Base64.standard live.response).events
  rw [hwire, hmap, hquery] at hrecord
  rw [hcount, serializedJson, List.length_append, List.length_singleton]
  rw [hexchange, hwire, hmap, hassessment] at hlength
  omega

/-- The replies that a Sixel probe records all come with its last read, but one. -/
theorem length_sixelEvents_le {b64 : Base64.Codec} {environment : ProbeEnvironment}
    {args : TtyProbeArgs} {ops : List TtyOp} {receipt : ProbeReceiptV1}
    (h : (sixelReceipt b64 environment args).Returns ops receipt) :
    receipt.exchange.events.length ≤ 1025 := by
  obtain ⟨_, _, live, -, hlive, -, -, hexchange, -⟩ := sixelReceipt_returns h
  obtain ⟨deadline, reads, -, -, -, hloop⟩ := executeTtyExchange_returns hlive
  have hcount : receipt.exchange.events.length = (Da1.parseResponses b64 live.response).length := by
    rw [hexchange]
    exact List.length_mapIdx
  obtain hempty | ⟨before, last, happend, hquiet, hlast⟩ := last_of_exchangeLoop hloop
  · rw [hcount, hempty]
    exact Nat.zero_le _
  · have hbefore : Da1.parseResponses b64 before = [] := by
      rw [da1StopReason] at hquiet
      split_ifs at hquiet with hnone
      exact List.isEmpty_iff.1 hnone
    have hreplies := @Da1.length_parseResponses_le b64 before last hbefore
    rw [hcount, happend]
    omega

/-! ### A loop that is never stopped -/

/-- **A loop that is never stopped collects everything**, until the terminal falls silent. -/
theorem exchangeLoop_of_reads {stopWhen : Bytes → Option StopReason}
    {maxResponseBytes deadline : ℕ} (hdeadline : 0 < deadline) {chunks : List Bytes}
    {response : Bytes} (hchunks : ∀ chunk ∈ chunks, chunk ≠ [] ∧ chunk.length ≤ 4096)
    (hroom : response.length + chunks.flatten.length < maxResponseBytes)
    (hquiet : ∀ before, before <+: chunks → stopWhen (response ++ before.flatten) = none) :
    (exchangeLoop stopWhen maxResponseBytes deadline response
      (chunks.map (arrives 0) ++ [⟨0, .timeout⟩])).Returns (chunks.map TtyOp.read)
      (response ++ chunks.flatten, .timeout) := by
  have hgo : stopNow stopWhen maxResponseBytes response = none := by
    refine stopNow_eq_none_iff.2 ⟨?_, by omega⟩
    have hstart := hquiet [] List.nil_prefix
    rwa [List.flatten_nil, List.append_nil] at hstart
  induction chunks generalizing response with
  | nil =>
      rw [List.map_nil, List.nil_append, exchangeLoop, hgo, List.flatten_nil, List.append_nil]
      simp [pollAndRead, Nat.not_le.2 hdeadline]
  | cons chunk chunks ih =>
      obtain ⟨hne, hshort⟩ := hchunks chunk List.mem_cons_self
      rw [List.flatten_cons, List.length_append] at hroom
      have hturn : pollAndRead maxResponseBytes deadline response (arrives 0 chunk) =
          .receive chunk := by
        have hlength : chunk.length ≠ 0 := fun h => hne (List.length_eq_zero_iff.1 h)
        have hfits : ¬ min (maxResponseBytes - response.length) 4096 < chunk.length := by omega
        simp only [pollAndRead, arrives, Nat.not_le.2 hdeadline, hlength, hfits, if_false]
      have hquiet' : ∀ before, before <+: chunks →
          stopWhen (response ++ chunk ++ before.flatten) = none := by
        intro before hbefore
        have hlater := hquiet (chunk :: before) (List.cons_prefix_cons.2 ⟨rfl, hbefore⟩)
        rwa [List.flatten_cons, ← List.append_assoc] at hlater
      have hrest := @ih (response ++ chunk) (fun c hc => hchunks c (List.mem_cons_of_mem _ hc))
        (by rw [List.length_append]; omega) hquiet' (by
          refine stopNow_eq_none_iff.2 ⟨?_, by rw [List.length_append]; omega⟩
          have hstart := hquiet' [] List.nil_prefix
          rwa [List.flatten_nil, List.append_nil] at hstart)
      rw [List.map_cons, List.cons_append, exchangeLoop, hgo, List.map_cons, List.flatten_cons,
        ← List.append_assoc]
      simp only [hturn]
      exact Traced.bind_returns_iff.2 ⟨_, (), _, Traced.emit_returns_iff.2 rfl, hrest, rfl⟩

/-- An exchange whose loop returns. -/
theorem executeTtyExchange_of_loop {session : TtySession} {request response : Bytes}
    {timeout maxResponseBytes deadline : ℕ} {stopWhen : Bytes → Option StopReason}
    {reads : List TtyOp} {reason : StopReason} (hopened : session.opened = .ok ())
    (hwritten : session.written = .ok ()) (htimeout : timeout ≠ 0) (hmax : maxResponseBytes ≠ 0)
    (hdeadline : checkedAdd session.started timeout = some deadline)
    (hloop : (exchangeLoop stopWhen maxResponseBytes deadline [] session.ticks).Returns reads
      (response, reason)) :
    (executeTtyExchange session request timeout maxResponseBytes stopWhen).Returns
      (.flush :: .write request :: reads)
      ⟨response, session.finished - session.started, reason⟩ := by
  have hcollect :
      (exchangeLoop stopWhen maxResponseBytes deadline [] session.ticks >>= fun result =>
      (pure ⟨result.1, session.finished - session.started, result.2⟩ : Tty LiveExchange)).Returns
        reads ⟨response, session.finished - session.started, reason⟩ :=
    Traced.bind_returns_iff.2 ⟨reads, (response, reason), [], hloop,
      Traced.pure_returns_iff.2 ⟨rfl, rfl⟩, (List.append_nil _).symm⟩
  rw [executeTtyExchange, if_neg htimeout, if_neg hmax, hopened, hwritten]
  simp only [hdeadline]
  refine Traced.bind_returns_iff.2 ⟨[], (), .flush :: .write request :: reads,
    Traced.ofExcept_returns_iff.2 ⟨rfl, rfl⟩, ?_, rfl⟩
  refine Traced.bind_returns_iff.2 ⟨[.flush], (), .write request :: reads,
    Traced.emit_returns_iff.2 rfl, ?_, rfl⟩
  refine Traced.bind_returns_iff.2 ⟨[], (), .write request :: reads,
    Traced.ofExcept_returns_iff.2 ⟨rfl, rfl⟩, ?_, rfl⟩
  exact Traced.bind_returns_iff.2 ⟨[.write request], (), reads, Traced.emit_returns_iff.2 rfl,
    hcollect, rfl⟩

/-! ### When a receipt is read -/

/-- **How long an emitted receipt is, and when a validator reads it**: the receipt of a direct Sixel
probe always is; that of a direct KGP probe is linear in the texts, the response and the events, and
is read as long as the events are few. -/
theorem emitted_receipts_fit :
    (∀ environment args ops receipt response,
      (kgpReceipt Base64.standard environment args).Returns ops receipt →
      args.common.transport = .direct →
      receipt.exchange.responseBase64 = Base64.standard.encode response →
      response.length ≤ DEFAULT_MAX_RESPONSE_BYTES →
      stringsLength environment.varOs args.common.tty ≤ 4096 →
      3 * (serializedJson receipt.toVec).length ≤
          5700 + 18 * stringsLength environment.varOs args.common.tty + 44 * response.length +
            755 * receipt.exchange.events.length ∧
        (receipt.exchange.events.length ≤ 240 →
          readContractDocument (serializedJson receipt.toVec) =
            some (serializedJson receipt.toVec))) ∧
    (∀ environment args ops receipt response,
      (sixelReceipt Base64.standard environment args).Returns ops receipt →
      args.transport = .direct →
      receipt.exchange.responseBase64 = Base64.standard.encode response →
      response.length ≤ DEFAULT_MAX_RESPONSE_BYTES →
      stringsLength environment.varOs args.tty ≤ 4096 →
      readContractDocument (serializedJson receipt.toVec) =
        some (serializedJson receipt.toVec)) := by
  constructor
  · intro environment args ops receipt response h hdirect hresponse hlimit hstrings
    have hlength := length_kgpReceipt_le hdirect h hresponse
    refine ⟨hlength, fun hevents => readContractDocument_eq_some_iff.2 ⟨rfl, ?_⟩⟩
    rw [DEFAULT_MAX_RESPONSE_BYTES] at hlimit
    rw [MAX_CONTRACT_DOCUMENT_BYTES]
    omega
  · intro environment args ops receipt response h hdirect hresponse hlimit hstrings
    have hlength := length_sixelReceipt_le hdirect h hresponse
    have hevents := length_sixelEvents_le h
    refine readContractDocument_eq_some_iff.2 ⟨rfl, ?_⟩
    rw [DEFAULT_MAX_RESPONSE_BYTES] at hlimit
    rw [MAX_CONTRACT_DOCUMENT_BYTES]
    omega

/-- A direct probe of a terminal that answers. -/
theorem emitted_receipts_fit_sample :
    ∃ ops receipt, (kgpReceipt Base64.standard sampleEnvironment
        ⟨31, { sampleArgs with transport := .direct }⟩).Returns ops receipt ∧
      readContractDocument (serializedJson receipt.toVec) =
        some (serializedJson receipt.toVec) := by
  obtain ⟨ops, receipt, h, hevents⟩ :=
    Traced.exists_returns (kgpReceipt Base64.standard sampleEnvironment
      ⟨31, { sampleArgs with transport := .direct }⟩)
      (fun receipt => decide (receipt.exchange.events.length ≤ 240)) (by rfl)
  obtain ⟨_, _, _, live, -, -, hlive, -, -, hexchange, -⟩ := kgpReceipt_returns h
  refine ⟨ops, receipt, h, (emitted_receipts_fit.1 sampleEnvironment
    ⟨31, { sampleArgs with transport := .direct }⟩ ops receipt live.response h rfl
    (by rw [hexchange]; rfl) (stopReason_of_exchange hlive).1 (by decide)).2 ?_⟩
  exact of_decide_eq_true hevents

/-! ### A terminal that fills a receipt -/

/-- A protocol reply without a body. -/
def floodSegment : Segment := .frame [] none List.not_mem_nil List.not_mem_nil

/-- What such a terminal sends at once: 800 replies in 4000 bytes. -/
def floodChunk : Bytes := render (List.replicate 800 floodSegment)

/-- A terminal that sends replies without a body, and then falls silent. -/
def floodEnvironment : ProbeEnvironment :=
  { prepareStarted := 0
    attempts := []
    session := sessionFrom 0 ((List.replicate 16 floodChunk).map (arrives 0) ++ [⟨0, .timeout⟩])
    sinceEpoch := some 0
    varOs := fun _ => none }

theorem length_render_flood (n : ℕ) : (render (List.replicate n floodSegment)).length = 5 * n := by
  induction n with
  | zero => rfl
  | succ n ih =>
      have hfive : floodSegment.bytes.length = 5 := by decide
      rw [List.replicate_succ, render_cons, List.length_append, hfive, ih]
      omega

/-- Some of these reads in a row. -/
theorem flatten_of_prefix {before : List Bytes} (h : before <+: List.replicate 16 floodChunk) :
    before.flatten = render (List.replicate (800 * before.length) floodSegment) := by
  have hall : ∀ chunk ∈ before, chunk = floodChunk := fun chunk hchunk =>
    List.eq_of_mem_replicate (h.subset hchunk)
  clear h
  induction before with
  | nil => rfl
  | cons chunk before ih =>
      rw [List.flatten_cons, ih fun c hc => hall c (List.mem_cons_of_mem _ hc),
        hall chunk List.mem_cons_self, floodChunk, ← render_append, List.replicate_append_replicate,
        List.length_cons, Nat.mul_succ, Nat.add_comm]

/-- No barrier is seen among these replies. -/
theorem kgpStopReason_flood (b64 : Base64.Codec) (correlationId : UInt32) (n : ℕ) :
    kgpStopReason b64 (render (List.replicate n floodSegment)) correlationId = none := by
  have hobserve := @observe_render b64 (List.replicate n floodSegment) [] inert_nil
  rw [List.append_nil] at hobserve
  rw [kgpStopReason_eq_none_iff, Bool.eq_false_iff, Ne, Kgp.barrierSeen_iff, List.find?_isSome,
    hobserve, exists_barrier_eventsOf]
  rintro ⟨segment, hmem, hbarrier⟩
  rw [List.eq_of_mem_replicate hmem] at hbarrier
  exact hbarrier

/-- Each of these replies becomes an event of more than a hundred bytes. -/
theorem sum_eventsOf_flood (n offset : ℕ) (sequence : UInt32) :
    100 * n ≤ ((eventsOf Base64.standard offset sequence (List.replicate n floodSegment)).map
      fun observed => observed.event.toVec.length).sum := by
  induction n generalizing offset sequence with
  | zero => exact Nat.zero_le _
  | succ n ih =>
      have hrest := ih (offset + floodSegment.bytes.length) (saturatingSucc sequence)
      have hprotocol : 20 ≤ Kgp.protocolId.toVec.length := by decide
      have hevent : 100 ≤ (Kgp.apcEvent Base64.standard sequence
          (bodyOf [] none)).toVec.length := by
        rw [WireEvent.length_toVec]
        change 100 ≤ 82 + _ + _ + Kgp.protocolId.toVec.length + _ + _ + _ + _
        omega
      have hfirst : eventsOf Base64.standard offset sequence
          (floodSegment :: List.replicate n floodSegment) =
            ⟨offset, Kgp.apcEvent Base64.standard sequence (bodyOf [] none)⟩ ::
              eventsOf Base64.standard (offset + floodSegment.bytes.length)
                (saturatingSucc sequence) (List.replicate n floodSegment) := rfl
      rw [List.replicate_succ, hfirst, List.map_cons, List.sum_cons, Nat.mul_succ, Nat.add_comm]
      exact Nat.add_le_add hevent hrest

/-- The exchange with such a terminal. -/
theorem exchange_flood (request : Bytes) :
    ∃ ops, (executeTtyExchange floodEnvironment.session request (fromMillis 750)
      DEFAULT_MAX_RESPONSE_BYTES fun response => kgpStopReason Base64.standard response 1).Returns
      ops ⟨render (List.replicate 12800 floodSegment), 0, .timeout⟩ := by
  have hcount : 800 * (List.replicate 16 floodChunk).length = 12800 := by
    rw [List.length_replicate]
  have hwhole := flatten_of_prefix (List.prefix_refl (List.replicate 16 floodChunk))
  rw [hcount] at hwhole
  have hlength := length_render_flood 800
  have hloop := @exchangeLoop_of_reads (fun response => kgpStopReason Base64.standard response 1)
    DEFAULT_MAX_RESPONSE_BYTES (fromMillis 750) (by decide) (List.replicate 16 floodChunk) []
    (by
      intro chunk hchunk
      obtain rfl := List.eq_of_mem_replicate hchunk
      refine ⟨fun hnil => ?_, ?_⟩
      · rw [← floodChunk, hnil, List.length_nil] at hlength
        omega
      · rw [floodChunk, hlength]
        decide)
    (by
      rw [hwhole, length_render_flood]
      decide)
    (by
      intro before hbefore
      rw [List.nil_append, flatten_of_prefix hbefore]
      exact kgpStopReason_flood _ _ _)
  rw [List.nil_append, hwhole] at hloop
  have hdeadline : checkedAdd floodEnvironment.session.started (fromMillis 750) =
      some (fromMillis 750) := by decide
  have hfinished : floodEnvironment.session.finished - floodEnvironment.session.started = 0 := by
    decide
  have hreturns := @executeTtyExchange_of_loop floodEnvironment.session request _ _ _ _ _ _ _
    rfl rfl (by decide) (by decide) hdeadline hloop
  rw [hfinished] at hreturns
  exact ⟨_, hreturns⟩

/-- **A receipt that no validator reads**: the receipt of a direct KGP probe of such a terminal,
whose response has 64000 bytes. -/
theorem flooded_receipt_rejected :
    ¬ ∀ environment args ops receipt response,
      (kgpReceipt Base64.standard environment args).Returns ops receipt →
      args.common.transport = .direct →
      receipt.exchange.responseBase64 = Base64.standard.encode response →
      response.length ≤ DEFAULT_MAX_RESPONSE_BYTES →
      stringsLength environment.varOs args.common.tty ≤ 4096 →
      readContractDocument (serializedJson receipt.toVec) =
        some (serializedJson receipt.toVec) := by
  intro hall
  obtain ⟨request, hrequest⟩ : ∃ request, Kgp.buildQuery 1 = .ok request := ⟨_, rfl⟩
  obtain ⟨exchangeOps, hlive⟩ := exchange_flood request
  have hprepared : (prepareTransport Base64.standard floodEnvironment
      ⟨750, DEFAULT_MAX_RESPONSE_BYTES, Text.asBytes "/dev/tty", .direct, 1500⟩).Returns []
        ⟨directTransportIdentity, .notRequired, []⟩ := by
    rw [prepareTransport, if_pos rfl]
    exact Traced.pure_returns_iff.2 ⟨rfl, rfl⟩
  have hbuilt : ((Kgp.buildQuery 1).mapError AppError.probeBuild) = .ok request := by
    rw [hrequest]
    rfl
  obtain ⟨ops, receipt, h⟩ : ∃ ops receipt, (kgpReceipt Base64.standard floodEnvironment
      ⟨1, ⟨750, DEFAULT_MAX_RESPONSE_BYTES, Text.asBytes "/dev/tty", .direct, 1500⟩⟩).Returns ops
        receipt :=
    ⟨_, _, Traced.bind_returns_iff.2 ⟨[], request, _, Traced.ofExcept_returns_iff.2 ⟨rfl, hbuilt⟩,
      Traced.bind_returns_iff.2 ⟨[], _, _, hprepared, Traced.bind_returns_iff.2 ⟨exchangeOps, _, _,
        hlive, Traced.bind_returns_iff.2 ⟨[], _, _, Traced.ofExcept_returns_iff.2 ⟨rfl, rfl⟩,
          Traced.pure_returns_iff.2 ⟨rfl, rfl⟩, rfl⟩, rfl⟩, rfl⟩, rfl⟩⟩
  obtain ⟨request', _, _, live, hrequest', -, hlive', -, -, hexchange, -⟩ := kgpReceipt_returns h
  obtain rfl : request' = request := Except.ok.inj (hrequest'.symm.trans hrequest)
  obtain ⟨-, rfl⟩ := Traced.Returns.unique hlive hlive'
  have hread := hall _ _ ops receipt (render (List.replicate 12800 floodSegment)) h rfl
    (by rw [hexchange]; rfl) (by rw [length_render_flood]; decide) (by decide)
  obtain ⟨-, hlength⟩ := readContractDocument_eq_some_iff.1 hread
  have hobserve := @observe_render Base64.standard (List.replicate 12800 floodSegment) [] inert_nil
  rw [List.append_nil] at hobserve
  have hevents : receipt.exchange.events =
      (eventsOf Base64.standard 0 0 (List.replicate 12800 floodSegment)).map
        Kgp.ObservedEvent.event := by
    rw [hexchange, wireExchange, Kgp.parseExchange, hobserve]
  have hsum : 100 * 12800 ≤
      ((receipt.exchange.events.map WireEvent.toVec).map List.length).sum := by
    rw [hevents, List.map_map, List.map_map]
    exact sum_eventsOf_flood 12800 0 0
  have harray := Json.le_length_array (receipt.exchange.events.map WireEvent.toVec)
  have hrecord := receipt.exchange.length_toVec
  have hwhole := receipt.length_toVec
  rw [serializedJson, List.length_append, MAX_CONTRACT_DOCUMENT_BYTES] at hlength
  omega

end TermInterop
