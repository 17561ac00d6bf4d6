/-
The live probes: transport preparation, the two probes and the receipts they emit.

A probe prepares the transport, runs one exchange and turns it into a receipt.  Under tmux
passthrough the preparation repeats a readiness query until it sees a reply or its deadline passes;
each attempt is recorded with the events found in it.

Main definitions:

* `TermInterop.TtyProbeArgs`, `TermInterop.ProbeEnvironment` — the arguments and the script;
* `TermInterop.prepareTransport` — the preparation;
* `TermInterop.kgpReceipt`, `TermInterop.sixelReceipt` — the probes.

Main results:

* `TermInterop.prepareTransport_returns` — what the preparation records;
* `TermInterop.kgpReceipt_returns`, `TermInterop.sixelReceipt_returns` — what a probe records.
-/

import TermInterop.Negotiation
import TermInterop.Tmux
import TermInterop.TtyExchange

set_option relaxedAutoImplicit false
set_option autoImplicit false

namespace TermInterop

/-! ### Arguments and environment -/

/-- The deadline of one readiness attempt in milliseconds. -/
def TRANSPORT_ATTEMPT_TIMEOUT_MS : ℕ := 100

/-- How protocol bytes reach the terminal. -/
inductive TransportKind
  | direct
  | tmuxPassthrough
  deriving DecidableEq

/-- The arguments of a probe.  A path is its bytes. -/
structure TtyProbeArgs where
  timeoutMs : UInt64
  maxResponseBytes : ℕ
  tty : Bytes
  transport : TransportKind
  transportTimeoutMs : UInt64

/-- The arguments of the KGP probe. -/
structure KgpProbeArgs where
  correlationId : UInt32
  common : TtyProbeArgs

/-- The default arguments under tmux passthrough. -/
def sampleArgs : TtyProbeArgs := ⟨750, 65536, Text.asBytes "/dev/tty", .tmuxPassthrough, 1500⟩

/-- One readiness attempt: the clock, and the exchange. -/
structure Attempt where
  now : ℕ
  session : TtySession

/-- Everything a probe is told by its environment. -/
structure ProbeEnvironment where
  prepareStarted : ℕ
  attempts : List Attempt
  session : TtySession
  /-- The time since the Unix epoch in nanoseconds, if the clock is not before it. -/
  sinceEpoch : Option ℕ
  varOs : String → Option Bytes

/-! ### Evidence -/

/-- `u64::try_from(millis).unwrap_or(u64::MAX)`. -/
def u64FromMillis (millis : ℕ) : UInt64 :=
  if millis < 2 ^ 64 then UInt64.ofNat millis else UInt64.ofNat (2 ^ 64 - 1)

/-- The time of the receipt. -/
def unixTimeMs (sinceEpoch : Option ℕ) : Except AppError UInt64 :=
  match sinceEpoch with
  | some elapsed => .ok (u64FromMillis (asMillis elapsed))
  | none => .error .clockBeforeEpoch

/-- The environment variables whose value is retained. -/
def VALUE_HINTS : List String := ["TERM", "TERM_PROGRAM", "COLORTERM"]

/-- The environment variables whose presence is retained. -/
def PRESENCE_HINTS : List String :=
  ["ZELLIJ", "ZELLIJ_SESSION_NAME", "TMUX", "SSH_CONNECTION", "SSH_TTY"]

/-- The environment hints, ordered by name. -/
def environmentHints (varOs : String → Option Bytes) : List EnvironmentHint :=
  let values := VALUE_HINTS.filterMap fun name => (varOs name).map fun value =>
    ⟨name, .value (String.ofList (Utf8Lossy.decode value))⟩
  let presences := PRESENCE_HINTS.filterMap fun name =>
    if (varOs name).isSome then some ⟨name, .present⟩ else none
  (values ++ presences).insertionSort fun left right => left.name ≤ right.name

/-- Identity of the direct transport. -/
def directTransportIdentity : AdapterIdentity := ⟨"direct-tty", "0.1.0"⟩

/-- The record of one exchange. -/
def wireExchange (b64 : Base64.Codec) (logicalRequest wireRequest : Bytes) (live : LiveExchange)
    (events : List WireEvent) : WireExchange :=
  { logicalRequestBase64 := b64.encode logicalRequest
    wireRequestBase64 := b64.encode wireRequest
    responseBase64 := b64.encode live.response
    events := events
    elapsedMs := u64FromMillis (asMillis live.elapsed)
    stopReason := live.stopReason }

/-! ### Preparation -/

/-- The readiness attempts, from a list of recorded exchanges on. -/
def prepareLoop (b64 : Base64.Codec) (args : TtyProbeArgs) (logicalRequest wireRequest : Bytes)
    (deadline : ℕ) (exchanges : List WireExchange) (attempts : List Attempt) :
    Tty (List WireExchange × TransportReadiness) :=
  match attempts with
  | [] => Traced.pending
  | attempt :: attempts =>
      let remaining := deadline - attempt.now
      if remaining = 0 then pure (exchanges, .unknown)
      else do
        let attemptTimeout := min remaining (fromMillis TRANSPORT_ATTEMPT_TIMEOUT_MS)
        let live ← executeTtyExchange attempt.session wireRequest attemptTimeout
          args.maxResponseBytes (da1StopReason b64)
        let responses := Da1.parseResponses b64 live.response
        let barrierSeen := !responses.isEmpty
        let events := enumerateEvents .barrierReply responses
        let exchanges := exchanges ++ [wireExchange b64 logicalRequest wireRequest live events]
        if barrierSeen then pure (exchanges, .ready)
        else prepareLoop b64 args logicalRequest wireRequest deadline exchanges attempts

/-- **Prepare the transport.** -/
def prepareTransport (b64 : Base64.Codec) (environment : ProbeEnvironment) (args : TtyProbeArgs) :
    Tty TransportEvidence :=
  if args.transport = .direct then pure ⟨directTransportIdentity, .notRequired, []⟩
  else if args.transportTimeoutMs = 0 then Traced.fail .zeroTransportTimeout
  else do
    let logicalRequest := Text.asBytes "\x1b[c"
    let wireRequest := Tmux.buildReadinessQuery
    let timeout := fromMillis args.transportTimeoutMs.toNat
    match checkedAdd environment.prepareStarted timeout with
    | none => Traced.fail .timeoutOutOfRange
    | some deadline => do
        let (exchanges, readiness) ← prepareLoop b64 args logicalRequest wireRequest deadline []
          environment.attempts
        pure ⟨Tmux.adapterIdentity, readiness, exchanges⟩

/-! ### The probes -/

/-- The bytes written for a protocol request. -/
def wireRequestOf (transport : TransportKind) (protocolRequest : Bytes) : Bytes :=
  match transport with
  | .direct => protocolRequest
  | .tmuxPassthrough => Tmux.wrapPassthrough protocolRequest

/-- **The KGP probe.** -/
def kgpReceipt (b64 : Base64.Codec) (environment : ProbeEnvironment) (args : KgpProbeArgs) :
    Tty ProbeReceiptV1 := do
  let common := args.common
  let protocolRequest ← Traced.ofExcept
    ((Kgp.buildQuery args.correlationId).mapError AppError.probeBuild)
  let transport ← prepareTransport b64 environment common
  let wireRequest := wireRequestOf common.transport protocolRequest
  let live ← executeTtyExchange environment.session wireRequest
    (fromMillis common.timeoutMs.toNat) common.maxResponseBytes
    fun response => kgpStopReason b64 response args.correlationId
  let parsed := Kgp.parseExchange b64 live.response args.correlationId
  let exchange := wireExchange b64 protocolRequest wireRequest live parsed.events
  let observedAtUnixMs ← Traced.ofExcept (unixTimeMs environment.sinceEpoch)
  pure
    { schema := PROBE_RECEIPT_SCHEMA_V1
      observedAtUnixMs := observedAtUnixMs
      capability := Kgp.capabilityId
      adapter := Kgp.adapterIdentity
      correlation := some ⟨"org.kitty.image-id", Nat.repr args.correlationId.toNat⟩
      context :=
        { ttyEndpoint := String.ofList (Utf8Lossy.decode common.tty)
          transport := transport
          environmentHints := environmentHints environment.varOs
          topology := .unknown }
      exchange := exchange
      assessment := parsed.assessment }

/-- **The Sixel probe.** -/
def sixelReceipt (b64 : Base64.Codec) (environment : ProbeEnvironment) (common : TtyProbeArgs) :
    Tty ProbeReceiptV1 := do
  let protocolRequest := Sixel.buildQuery
  let transport ← prepareTransport b64 environment common
  let wireRequest := wireRequestOf common.transport protocolRequest
  let live ← executeTtyExchange environment.session wireRequest
    (fromMillis common.timeoutMs.toNat) common.maxResponseBytes (da1StopReason b64)
  let parsed := Sixel.parseExchange b64 live.response
  let exchange := wireExchange b64 protocolRequest wireRequest live parsed.events
  let observedAtUnixMs ← Traced.ofExcept (unixTimeMs environment.sinceEpoch)
  pure
    { schema := PROBE_RECEIPT_SCHEMA_V1
      observedAtUnixMs := observedAtUnixMs
      capability := Sixel.capabilityId
      adapter := Sixel.adapterIdentity
      correlation := none
      context :=
        { ttyEndpoint := String.ofList (Utf8Lossy.decode common.tty)
          transport := transport
          environmentHints := environmentHints environment.varOs
          topology := .unknown }
      exchange := exchange
      assessment := parsed.assessment }

/-! ### What the preparation records -/

section Prepare

variable {b64 : Base64.Codec} {args : TtyProbeArgs}

/-- An exchange that records one readiness attempt: its events are the replies in its response. -/
def IsReadinessExchange (b64 : Base64.Codec) (exchange : WireExchange) : Prop :=
  ∃ live : LiveExchange, exchange = wireExchange b64 (Text.asBytes "\x1b[c")
    Tmux.buildReadinessQuery live
    (enumerateEvents .barrierReply (Da1.parseResponses b64 live.response))

/-- Writes nothing but the readiness query. -/
def OnlyQueries (ops : List TtyOp) : Prop :=
  ∀ request, TtyOp.write request ∈ ops → request = Tmux.buildReadinessQuery

theorem enumerateEvents_eq_nil_iff {role : WireEventRole} {responses : List Da1.Da1Response} :
    enumerateEvents role responses = [] ↔ responses = [] := by
  rw [enumerateEvents, List.mapIdx_eq_nil_iff]

/-- What the attempts record: every exchange but the last is silent, the last is silent unless the
transport is ready, and nothing but the readiness query is written. -/
structure Attempted (b64 : Base64.Codec) (exchanges : List WireExchange)
    (readiness : TransportReadiness) (ops : List TtyOp) : Prop where
  recorded : ∀ exchange ∈ exchanges, IsReadinessExchange b64 exchange
  silent : readiness ≠ .ready → ∀ exchange ∈ exchanges, exchange.events = []
  ready : readiness = .ready → ∃ earlier last, exchanges = earlier ++ [last] ∧
    last.events ≠ [] ∧ ∀ exchange ∈ earlier, exchange.events = []
  writes : OnlyQueries ops

/-- The attempts keep what was recorded before them. -/
theorem prepareLoop_returns {deadline : ℕ} {before exchanges : List WireExchange}
    {attempts : List Attempt} {readiness : TransportReadiness} {ops : List TtyOp}
    (h : (prepareLoop b64 args (Text.asBytes "\x1b[c") Tmux.buildReadinessQuery deadline before
      attempts).Returns ops (exchanges, readiness))
    (hrecorded : ∀ exchange ∈ before, IsReadinessExchange b64 exchange)
    (hsilent : ∀ exchange ∈ before, exchange.events = []) :
    Attempted b64 exchanges readiness ops := by
  induction attempts generalizing before ops with
  | nil => exact absurd h Traced.not_pending_returns
  | cons attempt attempts ih =>
      rw [prepareLoop] at h
      dsimp only at h
      split_ifs at h with hremaining
      · obtain ⟨rfl, heq⟩ := Traced.pure_returns_iff.1 h
        obtain ⟨rfl, rfl⟩ := Prod.mk.inj heq
        exact ⟨hrecorded, fun _ => hsilent, fun h => (TransportReadiness.noConfusion h),
          fun request hmem => absurd hmem List.not_mem_nil⟩
      · obtain ⟨ops₁, live, ops₂, hlive, hrest, rfl⟩ := Traced.bind_returns_iff.1 h
        have hwrites : OnlyQueries ops₁ := by
          obtain ⟨limit, reads, -, -, rfl, hloop⟩ := executeTtyExchange_returns hlive
          obtain ⟨chunks, rfl, -⟩ := (exchangeLoop_returns hloop).reads
          intro request hmem
          simpa using hmem
        have hrecorded' : ∀ exchange ∈ before ++ [wireExchange b64 (Text.asBytes "\x1b[c")
            Tmux.buildReadinessQuery live
            (enumerateEvents .barrierReply (Da1.parseResponses b64 live.response))],
            IsReadinessExchange b64 exchange := by
          intro exchange hmem
          obtain hmem | rfl := List.mem_append.1 hmem |>.imp id List.mem_singleton.1
          · exact hrecorded exchange hmem
          · exact ⟨live, rfl⟩
        split_ifs at hrest with hseen
        · -- the attempt saw a reply
          obtain ⟨rfl, heq⟩ := Traced.pure_returns_iff.1 hrest
          obtain ⟨rfl, rfl⟩ := Prod.mk.inj heq
          refine ⟨hrecorded', fun h => absurd rfl h, fun _ => ⟨before, _, rfl, ?_, hsilent⟩,
            by simpa using hwrites⟩
          simpa [wireExchange, enumerateEvents_eq_nil_iff] using hseen
        · -- the attempt was silent
          have hquiet : Da1.parseResponses b64 live.response = [] := by simpa using hseen
          have hnext := ih hrest hrecorded' (by
            intro exchange hmem
            obtain hmem | rfl := List.mem_append.1 hmem |>.imp id List.mem_singleton.1
            · exact hsilent exchange hmem
            · simp [wireExchange, hquiet, enumerateEvents])
          refine ⟨hnext.recorded, hnext.silent, hnext.ready, fun request hmem => ?_⟩
          obtain hmem | hmem := List.mem_append.1 hmem
          · exact hwrites request hmem
          · exact hnext.writes request hmem

/-- **What the preparation records.** -/
theorem prepareTransport_returns {environment : ProbeEnvironment} {transport : TransportEvidence}
    {ops : List TtyOp} (h : (prepareTransport b64 environment args).Returns ops transport) :
    Attempted b64 transport.preparationExchanges transport.readiness ops := by
  rw [prepareTransport] at h
  split_ifs at h with hdirect hzero
  · obtain ⟨rfl, rfl⟩ := Traced.pure_returns_iff.1 h
    exact ⟨by simp, by simp, fun h => TransportReadiness.noConfusion h,
      fun request hmem => absurd hmem List.not_mem_nil⟩
  · exact absurd h Traced.not_fail_returns
  · cases hdeadline :
        checkedAdd environment.prepareStarted (fromMillis args.transportTimeoutMs.toNat) with
    | none => simp [hdeadline] at h
    | some deadline =>
        simp only [hdeadline, Traced.bind_returns_iff, Traced.pure_returns_iff] at h
        obtain ⟨ops₁, ⟨exchanges, readiness⟩, _, hloop, ⟨rfl, rfl⟩, rfl⟩ := h
        rw [List.append_nil]
        exact prepareLoop_returns hloop (by simp) (by simp)

end Prepare

/-! ### What a probe records -/

section Receipts

variable {b64 : Base64.Codec} {environment : ProbeEnvironment}

/-- **What the KGP probe records**: the query is built, the transport is prepared, one exchange is
run, and the response is parsed. -/
theorem kgpReceipt_returns {args : KgpProbeArgs} {ops : List TtyOp} {receipt : ProbeReceiptV1}
    (h : (kgpReceipt b64 environment args).Returns ops receipt) :
    ∃ request prepareOps exchangeOps live, Kgp.buildQuery args.correlationId = .ok request ∧
      (prepareTransport b64 environment args.common).Returns prepareOps
        receipt.context.transport ∧
      (executeTtyExchange environment.session (wireRequestOf args.common.transport request)
        (fromMillis args.common.timeoutMs.toNat) args.common.maxResponseBytes
        fun response => kgpStopReason b64 response args.correlationId).Returns exchangeOps live ∧
      ops = prepareOps ++ exchangeOps ∧
      receipt.schema = PROBE_RECEIPT_SCHEMA_V1 ∧
      receipt.exchange = wireExchange b64 request (wireRequestOf args.common.transport request) live
        (Kgp.parseExchange b64 live.response args.correlationId).events ∧
      receipt.assessment = (Kgp.parseExchange b64 live.response args.correlationId).assessment := by
  simp only [kgpReceipt, Traced.bind_returns_iff, Traced.ofExcept_returns_iff,
    Traced.pure_returns_iff] at h
  obtain ⟨_, request, _, ⟨rfl, hrequest⟩, ⟨prepareOps, transport, _, htransport,
    ⟨exchangeOps, live, _, hlive, ⟨_, _, _, ⟨rfl, -⟩, ⟨rfl, rfl⟩, rfl⟩, rfl⟩, rfl⟩, rfl⟩ := h
  refine ⟨request, prepareOps, exchangeOps, live, ?_, htransport, hlive, by simp, rfl, rfl, rfl⟩
  cases hbuild : Kgp.buildQuery args.correlationId with
  | error error => simp [hbuild, Except.mapError] at hrequest
  | ok request' =>
      rw [hbuild] at hrequest
      simpa [Except.mapError] using hrequest

/-- **What the Sixel probe records.** -/
theorem sixelReceipt_returns {args : TtyProbeArgs} {ops : List TtyOp} {receipt : ProbeReceiptV1}
    (h : (sixelReceipt b64 environment args).Returns ops receipt) :
    ∃ prepareOps exchangeOps live,
      (prepareTransport b64 environment args).Returns prepareOps receipt.context.transport ∧
      (executeTtyExchange environment.session (wireRequestOf args.transport Sixel.buildQuery)
        (fromMillis args.timeoutMs.toNat) args.maxResponseBytes
        (da1StopReason b64)).Returns exchangeOps live ∧
      ops = prepareOps ++ exchangeOps ∧
      receipt.schema = PROBE_RECEIPT_SCHEMA_V1 ∧
      receipt.exchange = wireExchange b64 Sixel.buildQuery
        (wireRequestOf args.transport Sixel.buildQuery) live
        (Sixel.parseExchange b64 live.response).events ∧
      receipt.assessment = (Sixel.parseExchange b64 live.response).assessment := by
  simp only [sixelReceipt, Traced.bind_returns_iff, Traced.ofExcept_returns_iff,
    Traced.pure_returns_iff] at h
  obtain ⟨prepareOps, transport, _, htransport, ⟨exchangeOps, live, _, hlive,
    ⟨_, _, _, ⟨rfl, -⟩, ⟨rfl, rfl⟩, rfl⟩, rfl⟩, rfl⟩ := h
  exact ⟨prepareOps, exchangeOps, live, htransport, hlive, by simp, rfl, rfl, rfl⟩

end Receipts

end TermInterop
