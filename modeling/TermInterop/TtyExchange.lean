/-
One exchange on a terminal: write a request, and collect the response until a predicate on the
collected bytes, a limit, a deadline or the end of the input stops it.

What the system answers is a script: a session says how the calls before the loop went and at what
instants, and one tick for every turn of the loop says what the clock showed, what `poll` returned
and what `read` returned.  The loop is written as the source has it, one turn after the other, so
that a response is always a growing prefix of what the terminal sent.

The results here are the invariants of the loop.  They do not depend on what the predicate is; the
predicates of the two probes are instances.

Main definitions:

* `TermInterop.Tick`, `TermInterop.TtySession` — the script of one exchange;
* `TermInterop.exchangeLoop`, `TermInterop.executeTtyExchange` — the exchange;
* `TermInterop.kgpStopReason`, `TermInterop.da1StopReason` — the two predicates.

Main results:

* `TermInterop.exchangeLoop_returns` — **what the loop has collected when it stops, and why**;
* `TermInterop.timely_of_exchangeLoop` — bytes delivered in time are collected.
-/

import TermInterop.Intent
import TermInterop.PngDisplay
import TermInterop.Preview
import TermInterop.Sixel
import TermInterop.Traced

set_option relaxedAutoImplicit false
set_option autoImplicit false

namespace TermInterop

/-! ### Errors, durations and the clock -/

/-- The error number of a system call. -/
inductive Errno
  | EINTR
  | other (code : ℕ)
  deriving DecidableEq

/-- Why a command fails; the errors of the commands that are not modelled are left out. -/
inductive AppError
  | io (message : String)
  | terminal (error : Errno)
  | probeBuild (error : Kgp.ProbeBuildError)
  | displayBuild (error : Kgp.DisplayBuildError)
  | artifact (error : ArtifactError)
  | intent (error : IntentError)
  | sixelEncoding (message : String)
  | terminalGeometryUnavailable (path : Bytes)
  | noPixelRenderer (kgp sixel : String)
  | clockBeforeEpoch
  | zeroTimeout
  | timeoutOutOfRange
  | zeroTransportTimeout
  | zeroResponseLimit
  deriving DecidableEq

/-- `Duration::from_millis`, in nanoseconds. -/
def fromMillis (millis : ℕ) : ℕ := millis * 1000000

/-- `Duration::as_millis`. -/
def asMillis (duration : ℕ) : ℕ := duration / 1000000

/-- The first instant, in nanoseconds, that the monotonic clock cannot represent: its seconds are
`i64`. -/
def INSTANT_END : ℕ := 2 ^ 63 * 1000000000

/-- `Instant::checked_add`. -/
def checkedAdd (started timeout : ℕ) : Option ℕ :=
  if started + timeout < INSTANT_END then some (started + timeout) else none

/-! ### The script -/

/-- What `poll` returned, and `read` after it. -/
inductive PollOutcome
  | timeout
  | failed (error : Errno)
  | ready (read : Except String Bytes)

/-- One turn of the loop: the clock, and then the terminal. -/
structure Tick where
  now : ℕ
  poll : PollOutcome

/-- A turn in which bytes arrive. -/
def arrives (now : ℕ) (bytes : Bytes) : Tick := ⟨now, .ready (.ok bytes)⟩

/-- The bytes that arrive in one turn. -/
def Tick.received (tick : Tick) : Bytes :=
  match tick.poll with
  | .ready (.ok bytes) => bytes
  | _ => []

/-- The bytes that arrive over several turns. -/
def received (ticks : List Tick) : Bytes := ticks.flatMap Tick.received

@[simp] theorem received_nil : received [] = [] := rfl

@[simp] theorem received_cons (tick : Tick) (ticks : List Tick) :
    received (tick :: ticks) = tick.received ++ received ticks := rfl

@[simp] theorem received_append (ticks ticks' : List Tick) :
    received (ticks ++ ticks') = received ticks ++ received ticks' := by
  simp [received]

/-- One exchange as the system sees it: the calls up to the flush of the input, those from there to
the written request, and the turns of the loop. -/
structure TtySession where
  opened : Except AppError Unit
  written : Except AppError Unit
  started : ℕ
  ticks : List Tick
  finished : ℕ

/-- A session whose calls before the loop succeed. -/
def sessionFrom (started : ℕ) (ticks : List Tick) : TtySession :=
  ⟨.ok (), .ok (), started, ticks, (ticks.map Tick.now).foldl max started⟩

/-- What the program does to the terminal. -/
inductive TtyOp
  | flush
  | write (request : Bytes)
  | read (bytes : Bytes)
  deriving DecidableEq

/-- A program that acts on the terminal. -/
abbrev Tty (α : Type) := Traced TtyOp AppError α

/-! ### The loop -/

/-- The checks of a turn that need no clock. -/
def stopNow (stopWhen : Bytes → Option StopReason) (maxResponseBytes : ℕ) (response : Bytes) :
    Option StopReason :=
  match stopWhen response with
  | some reason => some reason
  | none => if maxResponseBytes ≤ response.length then some .resourceLimit else none

/-- What the rest of a turn leads to. -/
inductive Turn
  | stop (reason : StopReason)
  | retry
  | receive (bytes : Bytes)
  | fail (error : AppError)

/-- The rest of a turn: the deadline, `poll` and `read`. -/
def pollAndRead (maxResponseBytes deadline : ℕ) (response : Bytes) (tick : Tick) : Turn :=
  if deadline ≤ tick.now then .stop .timeout
  else
    match tick.poll with
    | .timeout => .stop .timeout
    | .failed .EINTR => .retry
    | .failed error => .fail (.terminal error)
    | .ready (.error message) => .fail (.io message)
    | .ready (.ok bytes) =>
        let available := maxResponseBytes - response.length
        if bytes.length = 0 then .stop .endOfInput
        else if min available 4096 < bytes.length then
          .fail (.io "TTY read exceeded the supplied buffer")
        else .receive bytes

/-- **The loop**, from a response on. -/
def exchangeLoop (stopWhen : Bytes → Option StopReason) (maxResponseBytes deadline : ℕ)
    (response : Bytes) (ticks : List Tick) : Tty (Bytes × StopReason) :=
  match stopNow stopWhen maxResponseBytes response with
  | some reason => pure (response, reason)
  | none =>
      match ticks with
      | [] => Traced.pending
      | tick :: ticks =>
          match pollAndRead maxResponseBytes deadline response tick with
          | .stop reason => pure (response, reason)
          | .retry => exchangeLoop stopWhen maxResponseBytes deadline response ticks
          | .receive bytes => do
              Traced.emit (.read bytes)
              exchangeLoop stopWhen maxResponseBytes deadline (response ++ bytes) ticks
          | .fail error => Traced.fail error

/-- What an exchange has collected. -/
structure LiveExchange where
  response : Bytes
  elapsed : ℕ
  stopReason : StopReason

/-- **One exchange.** -/
def executeTtyExchange (session : TtySession) (request : Bytes) (timeout maxResponseBytes : ℕ)
    (stopWhen : Bytes → Option StopReason) : Tty LiveExchange :=
  if timeout = 0 then Traced.fail .zeroTimeout
  else if maxResponseBytes = 0 then Traced.fail .zeroResponseLimit
  else do
    Traced.ofExcept session.opened
    Traced.emit .flush
    Traced.ofExcept session.written
    Traced.emit (.write request)
    match checkedAdd session.started timeout with
    | none => Traced.fail .timeoutOutOfRange
    | some deadline => do
        let (response, stopReason) ←
          exchangeLoop stopWhen maxResponseBytes deadline [] session.ticks
        pure ⟨response, session.finished - session.started, stopReason⟩

/-! ### The predicates -/

/-- The predicate of the KGP probe. -/
def kgpStopReason (b64 : Base64.Codec) (response : Bytes) (correlationId : UInt32) :
    Option StopReason :=
  let parsed := Kgp.parseExchange b64 response correlationId
  if !parsed.barrierSeen then none
  else
    some (if parsed.correlatedReplySeen then .capabilityAndBarrierObserved else .barrierObserved)

/-- The predicate of the readiness query and of the Sixel probe. -/
def da1StopReason (b64 : Base64.Codec) (response : Bytes) : Option StopReason :=
  if (Da1.parseResponses b64 response).isEmpty then none else some .barrierObserved

/-! ### Invariants of the loop -/

section Loop

variable {stopWhen : Bytes → Option StopReason} {maxResponseBytes deadline : ℕ}
  {response final : Bytes} {reason : StopReason} {ticks : List Tick} {ops : List TtyOp}

theorem stopNow_eq_some_iff : stopNow stopWhen maxResponseBytes response = some reason ↔
    stopWhen response = some reason ∨
      stopWhen response = none ∧ maxResponseBytes ≤ response.length ∧ reason = .resourceLimit := by
  rw [stopNow]
  cases stopWhen response with
  | some r => simp
  | none => simp [eq_comm]

theorem stopNow_eq_none_iff : stopNow stopWhen maxResponseBytes response = none ↔
    stopWhen response = none ∧ response.length < maxResponseBytes := by
  rw [stopNow]
  cases stopWhen response with
  | some r => simp
  | none => simp

/-- The bytes of one turn fit. -/
theorem receive_of_pollAndRead {tick : Tick} {bytes : Bytes}
    (h : pollAndRead maxResponseBytes deadline response tick = .receive bytes) :
    tick.received = bytes ∧ bytes ≠ [] ∧
      bytes.length ≤ min (maxResponseBytes - response.length) 4096 := by
  rw [pollAndRead] at h
  split at h
  · cases h
  · cases hpoll : tick.poll with
    | timeout => simp [hpoll] at h
    | failed error => cases error <;> simp [hpoll] at h
    | ready read =>
        cases read with
        | error message => simp [hpoll] at h
        | ok bytes' =>
            simp only [hpoll] at h
            split at h
            · cases h
            · rename_i hne
              split at h
              · cases h
              · rename_i hfit
                obtain rfl := Turn.receive.inj h
                refine ⟨by rw [Tick.received, hpoll], fun hnil => hne (by rw [hnil]; rfl), ?_⟩
                omega

/-- Nothing arrives in a turn that is repeated. -/
theorem received_of_retry {tick : Tick}
    (h : pollAndRead maxResponseBytes deadline response tick = .retry) : tick.received = [] := by
  rw [pollAndRead] at h
  split at h
  · cases h
  · cases hpoll : tick.poll with
    | timeout => rw [Tick.received, hpoll]
    | failed error => rw [Tick.received, hpoll]
    | ready read =>
        cases read with
        | error message => rw [Tick.received, hpoll]
        | ok bytes =>
            simp only [hpoll] at h
            split at h
            · cases h
            · split at h <;> cases h

/-- A turn that stops the loop stops it at the deadline or at the end of the input. -/
theorem stop_of_pollAndRead {tick : Tick}
    (h : pollAndRead maxResponseBytes deadline response tick = .stop reason) :
    reason = .timeout ∨ reason = .endOfInput := by
  rw [pollAndRead] at h
  split at h
  · exact Or.inl (Turn.stop.inj h).symm
  · cases hpoll : tick.poll with
    | timeout =>
        simp only [hpoll] at h
        exact Or.inl (Turn.stop.inj h).symm
    | failed error => cases error <;> simp [hpoll] at h
    | ready read =>
        cases read with
        | error message => simp [hpoll] at h
        | ok bytes' =>
            simp only [hpoll] at h
            split at h
            · exact Or.inr (Turn.stop.inj h).symm
            · split at h <;> cases h


/-- One turn of the loop: how a loop that returns goes on. -/
theorem exchangeLoop_cases
    (h : (exchangeLoop stopWhen maxResponseBytes deadline response ticks).Returns ops
      (final, reason)) :
    (ops = [] ∧ final = response ∧
      (stopNow stopWhen maxResponseBytes response = some reason ∨
        stopNow stopWhen maxResponseBytes response = none ∧ ∃ tick rest, ticks = tick :: rest ∧
          pollAndRead maxResponseBytes deadline response tick = .stop reason)) ∨
    (stopNow stopWhen maxResponseBytes response = none ∧ ∃ tick rest, ticks = tick :: rest ∧
      (pollAndRead maxResponseBytes deadline response tick = .retry ∧
          (exchangeLoop stopWhen maxResponseBytes deadline response rest).Returns ops
            (final, reason) ∨
        ∃ bytes ops', pollAndRead maxResponseBytes deadline response tick = .receive bytes ∧
          ops = .read bytes :: ops' ∧
          (exchangeLoop stopWhen maxResponseBytes deadline (response ++ bytes) rest).Returns ops'
            (final, reason))) := by
  rw [exchangeLoop.eq_def] at h
  cases hstop : stopNow stopWhen maxResponseBytes response with
  | some reason' =>
      simp only [hstop, Traced.pure_returns_iff, Prod.mk.injEq] at h
      obtain ⟨rfl, rfl, rfl⟩ := h
      exact Or.inl ⟨rfl, rfl, Or.inl rfl⟩
  | none =>
      cases ticks with
      | nil => simp [hstop] at h
      | cons tick rest =>
          simp only [hstop] at h
          cases hturn : pollAndRead maxResponseBytes deadline response tick with
          | stop reason' =>
              simp only [hturn, Traced.pure_returns_iff, Prod.mk.injEq] at h
              obtain ⟨rfl, rfl, rfl⟩ := h
              exact Or.inl ⟨rfl, rfl, Or.inr ⟨rfl, tick, rest, rfl, hturn⟩⟩
          | retry =>
              simp only [hturn] at h
              exact Or.inr ⟨rfl, tick, rest, rfl, Or.inl ⟨hturn, h⟩⟩
          | receive bytes =>
              simp only [hturn, Traced.bind_returns_iff, Traced.emit_returns_iff] at h
              obtain ⟨_, _, ops', rfl, hrest, rfl⟩ := h
              exact Or.inr ⟨rfl, tick, rest, rfl, Or.inr ⟨bytes, ops', hturn, rfl, hrest⟩⟩
          | fail error => simp [hturn] at h

/-- What the loop has collected when it stops, and why it stops. -/
structure Stopped (stopWhen : Bytes → Option StopReason) (maxResponseBytes : ℕ) (response : Bytes)
    (ticks : List Tick) (ops : List TtyOp) (final : Bytes) (reason : StopReason) : Prop where
  /-- It has collected what arrived in the turns it took. -/
  arrived : ∃ taken rest, ticks = taken ++ rest ∧ final = response ++ received taken
  /-- It has collected what it read. -/
  reads : ∃ chunks : List Bytes, ops = chunks.map TtyOp.read ∧ final = response ++ chunks.flatten
  /-- It respects the limit. -/
  bound : response.length ≤ maxResponseBytes → final.length ≤ maxResponseBytes
  /-- It stops because of the predicate, or the predicate does not hold of what was collected. -/
  why : stopWhen final = some reason ∨
    stopWhen final = none ∧ (reason = .resourceLimit ∨ reason = .timeout ∨ reason = .endOfInput)

/-- **What the loop has collected when it stops, and why.** -/
theorem exchangeLoop_returns
    (h : (exchangeLoop stopWhen maxResponseBytes deadline response ticks).Returns ops
      (final, reason)) :
    Stopped stopWhen maxResponseBytes response ticks ops final reason := by
  induction ticks generalizing response ops with
  | nil =>
      obtain ⟨rfl, rfl, hwhy⟩ | ⟨-, tick, rest, hticks, -⟩ := exchangeLoop_cases h
      · refine ⟨⟨[], [], rfl, by simp⟩, ⟨[], rfl, by simp⟩, id, ?_⟩
        obtain hstop | ⟨-, tick, rest, hticks, -⟩ := hwhy
        · obtain hp | ⟨hp, -, rfl⟩ := stopNow_eq_some_iff.1 hstop
          · exact Or.inl hp
          · exact Or.inr ⟨hp, Or.inl rfl⟩
        · cases hticks
      · cases hticks
  | cons tick rest ih =>
      obtain ⟨rfl, rfl, hwhy⟩ | ⟨-, tick', rest', hticks, hgo⟩ := exchangeLoop_cases h
      · refine ⟨⟨[], tick :: rest, rfl, by simp⟩, ⟨[], rfl, by simp⟩, id, ?_⟩
        obtain hstop | ⟨hnone, tick', rest', -, hturn⟩ := hwhy
        · obtain hp | ⟨hp, -, rfl⟩ := stopNow_eq_some_iff.1 hstop
          · exact Or.inl hp
          · exact Or.inr ⟨hp, Or.inl rfl⟩
        · exact Or.inr ⟨(stopNow_eq_none_iff.1 hnone).1, Or.inr (stop_of_pollAndRead hturn)⟩
      · obtain ⟨rfl, rfl⟩ := List.cons.inj hticks
        obtain ⟨hturn, hrest⟩ | ⟨bytes, ops', hturn, rfl, hrest⟩ := hgo
        · obtain ⟨⟨taken, left, rfl, hfinal⟩, hreads, hbound, hwhy⟩ := ih hrest
          refine ⟨⟨tick :: taken, left, rfl, ?_⟩, hreads, hbound, hwhy⟩
          rw [received_cons, received_of_retry hturn, List.nil_append, hfinal]
        · obtain ⟨⟨taken, left, rfl, hfinal⟩, ⟨chunks, rfl, hchunks⟩, hbound, hwhy⟩ := ih hrest
          obtain ⟨hreceived, -, hfit⟩ := receive_of_pollAndRead hturn
          refine ⟨⟨tick :: taken, left, rfl, ?_⟩, ⟨bytes :: chunks, rfl, ?_⟩, ?_, hwhy⟩
          · rw [received_cons, hreceived, hfinal, List.append_assoc]
          · rw [List.flatten_cons, hchunks, List.append_assoc]
          · intro hlen
            refine hbound ?_
            rw [List.length_append]
            omega

/-- **All but the last read** have left the predicate without an answer. -/
theorem last_of_exchangeLoop
    (h : (exchangeLoop stopWhen maxResponseBytes deadline response ticks).Returns ops
      (final, reason)) :
    final = response ∨
      ∃ before last, final = before ++ last ∧ stopWhen before = none ∧ last.length ≤ 4096 := by
  induction ticks generalizing response ops with
  | nil =>
      obtain ⟨-, rfl, -⟩ | ⟨-, tick, rest, hticks, -⟩ := exchangeLoop_cases h
      · exact Or.inl rfl
      · cases hticks
  | cons tick rest ih =>
      obtain ⟨-, rfl, -⟩ | ⟨hnone, tick', rest', hticks, hgo⟩ := exchangeLoop_cases h
      · exact Or.inl rfl
      · obtain ⟨rfl, rfl⟩ := List.cons.inj hticks
        obtain ⟨-, hrest⟩ | ⟨bytes, ops', hturn, -, hrest⟩ := hgo
        · exact ih hrest
        · obtain ⟨-, -, hfit⟩ := receive_of_pollAndRead hturn
          obtain rfl | hlater := ih hrest
          · exact Or.inr ⟨response, bytes, rfl, (stopNow_eq_none_iff.1 hnone).1,
              hfit.trans (Nat.min_le_right _ _)⟩
          · exact Or.inr hlater

/-! ### Bytes delivered in time -/

/-- A turn that takes place before the deadline and delivers bytes or is interrupted. -/
def Tick.Timely (deadline : ℕ) (tick : Tick) : Prop :=
  tick.now < deadline ∧
    (tick.poll = .failed .EINTR ∨ ∃ bytes, tick.poll = .ready (.ok bytes) ∧ bytes ≠ [])

/-- A timely turn does not stop the loop. -/
theorem not_stop_of_timely {tick : Tick} (h : tick.Timely deadline) :
    pollAndRead maxResponseBytes deadline response tick ≠ .stop reason := by
  obtain ⟨hnow, hpoll | ⟨bytes, hpoll, hne⟩⟩ := h
  · simp [pollAndRead, hpoll, Nat.not_le.2 hnow]
  · have hlen : bytes.length ≠ 0 := fun h => hne (List.length_eq_zero_iff.1 h)
    simp only [pollAndRead, hpoll, if_neg (Nat.not_le.2 hnow), if_neg hlen]
    split <;> simp

/-- **Bytes delivered in time are collected**, unless the loop stops before because of its
predicate or its limit. -/
theorem timely_of_exchangeLoop {timely rest : List Tick}
    (h : (exchangeLoop stopWhen maxResponseBytes deadline response (timely ++ rest)).Returns ops
      (final, reason))
    (htimely : ∀ tick ∈ timely, tick.Timely deadline) :
    stopWhen final = some reason ∨ maxResponseBytes ≤ final.length ∨
      response ++ received timely <+: final := by
  induction timely generalizing response ops with
  | nil =>
      obtain ⟨taken, left, -, hfinal⟩ := (exchangeLoop_returns h).arrived
      exact Or.inr (Or.inr ⟨received taken, by rw [received_nil, List.append_nil, hfinal]⟩)
  | cons tick timely ih =>
      obtain ⟨htick, htimely⟩ := List.forall_mem_cons.1 htimely
      obtain ⟨rfl, rfl, hwhy⟩ | ⟨-, tick', rest', hticks, hgo⟩ := exchangeLoop_cases h
      · obtain hstop | ⟨-, tick', rest', hticks, hturn⟩ := hwhy
        · obtain hp | ⟨-, hlen, -⟩ := stopNow_eq_some_iff.1 hstop
          · exact Or.inl hp
          · exact Or.inr (Or.inl hlen)
        · obtain ⟨rfl, -⟩ := List.cons.inj hticks
          exact absurd hturn (not_stop_of_timely htick)
      · obtain ⟨rfl, rfl⟩ := List.cons.inj hticks
        obtain ⟨hturn, hrest⟩ | ⟨bytes, ops', hturn, -, hrest⟩ := hgo
        · simpa only [received_cons, received_of_retry hturn, List.nil_append]
            using ih hrest htimely
        · simpa only [received_cons, (receive_of_pollAndRead hturn).1, List.append_assoc]
            using ih hrest htimely

end Loop

/-! ### The whole exchange -/

/-- **What an exchange does and returns**: it flushes the input, writes the request, and runs the
loop from an empty response. -/
theorem executeTtyExchange_returns {session : TtySession} {request : Bytes}
    {timeout maxResponseBytes : ℕ} {stopWhen : Bytes → Option StopReason} {ops : List TtyOp}
    {live : LiveExchange}
    (h : (executeTtyExchange session request timeout maxResponseBytes stopWhen).Returns ops live) :
    ∃ deadline reads, 0 < maxResponseBytes ∧ checkedAdd session.started timeout = some deadline ∧
      ops = .flush :: .write request :: reads ∧
      (exchangeLoop stopWhen maxResponseBytes deadline [] session.ticks).Returns reads
        (live.response, live.stopReason) := by
  rw [executeTtyExchange] at h
  split_ifs at h with htimeout hmax
  · exact absurd h Traced.not_fail_returns
  · exact absurd h Traced.not_fail_returns
  · simp only [Traced.bind_returns_iff, Traced.ofExcept_returns_iff, Traced.emit_returns_iff] at h
    obtain ⟨_, _, _, ⟨rfl, -⟩, ⟨_, _, _, rfl, ⟨_, _, _, ⟨rfl, -⟩, ⟨_, _, _, rfl, h, rfl⟩, rfl⟩,
      rfl⟩, rfl⟩ := h
    cases hdeadline : checkedAdd session.started timeout with
    | none => simp [hdeadline] at h
    | some deadline =>
        simp only [hdeadline, Traced.bind_returns_iff, Traced.pure_returns_iff] at h
        obtain ⟨reads, ⟨response, reason⟩, _, hloop, ⟨rfl, rfl⟩, rfl⟩ := h
        exact ⟨deadline, reads, Nat.pos_of_ne_zero hmax, rfl, by simp, hloop⟩

/-- When the predicate of the KGP probe fires, and with which reason. -/
theorem kgpStopReason_eq_some_iff {b64 : Base64.Codec} {response : Bytes} {correlationId : UInt32}
    {reason : StopReason} :
    kgpStopReason b64 response correlationId = some reason ↔
      (Kgp.parseExchange b64 response correlationId).barrierSeen = true ∧
        reason = if (Kgp.parseExchange b64 response correlationId).correlatedReplySeen then
          .capabilityAndBarrierObserved else .barrierObserved := by
  rw [kgpStopReason]
  cases (Kgp.parseExchange b64 response correlationId).barrierSeen with
  | false => simp
  | true =>
      simp only [Bool.not_true, Bool.false_eq_true, if_false, Option.some_inj, true_and]
      exact eq_comm

theorem kgpStopReason_eq_none_iff {b64 : Base64.Codec} {response : Bytes}
    {correlationId : UInt32} :
    kgpStopReason b64 response correlationId = none ↔
      (Kgp.parseExchange b64 response correlationId).barrierSeen = false := by
  rw [kgpStopReason]
  cases (Kgp.parseExchange b64 response correlationId).barrierSeen <;> simp

end TermInterop
