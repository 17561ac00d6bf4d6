/-
The terminal behind tmux passthrough: a responder that answers in order.

The terminal answers every query it receives, in the order in which it receives them and after any
delay.  A reply is first in flight and then delivered, byte by byte; flushing the input discards
what is delivered and not yet read, and nothing else.  The terminal watches the operations of a
probe; delivering is silent, so that it may happen at any time between two operations.

A DA1 reply does not say which query it answers.  What the KGP probe concludes therefore depends on
what is in flight when it begins: the reply to an earlier readiness query that arrives after the
flush is taken for the barrier of the probe.  The theorem below says that this is the only way to
go wrong, and the run before it shows that it happens.

Main definitions:

* `TermInterop.TerminalState`, `TermInterop.Answers`, `TermInterop.responder` — the terminal.

Main results:

* `TermInterop.pending_of_reads` — what is read is what was pending, in order;
* `TermInterop.stale_reply_taken_as_barrier` — a run with a wrong verdict;
* `TermInterop.available_iff_no_stale_reply` — **when the verdict is right**.
-/

import TermInterop.Lts
import TermInterop.Probe
import TermInterop.ReplyStream

set_option relaxedAutoImplicit false
set_option autoImplicit false

namespace TermInterop

/-! ### The terminal -/

/-- The bytes of replies on their way: in flight, and delivered but not yet read. -/
structure TerminalState where
  inFlight : Bytes
  delivered : Bytes

/-- All bytes on their way, in order. -/
def TerminalState.pending (s : TerminalState) : Bytes := s.delivered ++ s.inFlight

/-- The control part of the reply to a query. -/
def replyControl (correlationId : UInt32) : Bytes :=
  Text.asBytes ("i=" ++ Nat.repr correlationId.toNat)

theorem ascii_replyText (correlationId : UInt32) :
    ∀ c ∈ ("i=" ++ Nat.repr correlationId.toNat).toList, c.toNat < 128 := by
  intro c hc
  rw [String.toList_append, List.mem_append] at hc
  rcases hc with hc | hc
  · rcases List.mem_pair.1 hc with rfl | rfl <;> decide
  · exact Text.ascii_of_mem_repr hc

/-- The bytes of the control part are the letter, the sign and the digits. -/
theorem mem_replyControl {correlationId : UInt32} {b : UInt8}
    (h : b ∈ replyControl correlationId) :
    b = ascii 'i' ∨ b = ascii '=' ∨ ∃ c : Char, c.isDigit = true ∧ b = ascii c := by
  rw [replyControl, Text.asBytes, Text.utf8_of_ascii (ascii_replyText correlationId)] at h
  obtain ⟨c, hc, rfl⟩ := List.mem_map.1 h
  rw [String.toList_append, List.mem_append] at hc
  rcases hc with hc | hc
  · rcases List.mem_pair.1 hc with rfl | rfl
    · exact Or.inl rfl
    · exact Or.inr (Or.inl rfl)
  · exact Or.inr (Or.inr ⟨c, Text.isDigit_of_mem_repr hc, rfl⟩)

/-- A byte that is no digit and neither the letter nor the sign is not in the control part. -/
theorem notMem_replyControl {correlationId : UInt32} {b : UInt8} (hi : b ≠ ascii 'i')
    (heq : b ≠ ascii '=') (hdigit : b.toNat < 48 ∨ 57 < b.toNat) :
    b ∉ replyControl correlationId := by
  intro hmem
  rcases mem_replyControl hmem with h | h | ⟨c, hc, rfl⟩
  · exact hi h
  · exact heq h
  · obtain ⟨hlo, hhi⟩ := Text.isDigit_iff.1 hc
    have hval : (ascii c).toNat = c.toNat := by
      rw [ascii, Text.asciiByte, UInt8.toNat_ofNat']
      omega
    omega

/-- **The reply to the query with an identifier.** -/
def kgpReply (correlationId : UInt32) : Segment :=
  .frame (replyControl correlationId) (some okPayload)
    (notMem_replyControl (by decide) (by decide) (by decide)) (by
      simp only [bodyOf, List.mem_append, List.mem_cons, not_or]
      exact ⟨notMem_replyControl (by decide) (by decide) (by decide), by decide, by decide⟩)

example : (kgpReply 31).bytes = Text.asBytes "\x1b_Gi=31;OK\x1b\\" := by rfl

/-- The replies to a request: a DA1 query yields one DA1 reply, and a KGP query yields its reply
ahead of the DA1 reply of the same request. -/
inductive Answers : Bytes → List Segment → Prop
  | da1 (fields : Da1Fields) : Answers Da1.buildQuery [.barrier fields]
  | kgp {correlationId : UInt32} {request : Bytes} (fields : Da1Fields) :
      Kgp.buildQuery correlationId = .ok request →
      Answers request [kgpReply correlationId, .barrier fields]

/-- **The terminal**, watching the operations of a probe. -/
def responder : Lts TerminalState TtyOp where
  silent s t := ∃ arrived, s.inFlight = arrived ++ t.inFlight ∧
    t.delivered = s.delivered ++ arrived
  step s op t :=
    match op with
    | .flush => t = { s with delivered := [] }
    | .write wire => ∃ request replies, Tmux.unwrap wire = some request ∧
        Answers request replies ∧ t = { s with inFlight := s.inFlight ++ render replies }
    | .read bytes => ∃ rest, s.delivered = bytes ++ rest ∧ t = { s with delivered := rest }

/-! ### What is read -/

theorem pending_of_silent {s t : TerminalState} (h : responder.silent s t) :
    t.pending = s.pending := by
  obtain ⟨arrived, hflight, hdelivered⟩ := h
  rw [TerminalState.pending, TerminalState.pending, hflight, hdelivered, List.append_assoc]

theorem pending_of_run_nil {s t : TerminalState} (h : responder.Run s [] t) :
    t.pending = s.pending := by
  generalize hl : ([] : List TtyOp) = ops at h
  induction h with
  | nil s => rfl
  | silent hs _ ih => exact (ih hl).trans (pending_of_silent hs)
  | step _ _ _ => cases hl

/-- **What is read is what was pending, in order.** -/
theorem pending_of_reads {s t : TerminalState} {chunks : List Bytes}
    (h : responder.Run s (chunks.map TtyOp.read) t) : s.pending = chunks.flatten ++ t.pending := by
  induction chunks generalizing s with
  | nil => exact (pending_of_run_nil h).symm
  | cons bytes chunks ih =>
      obtain ⟨s₁, s₂, hsilent, ⟨rest, hdelivered, rfl⟩, hrest⟩ := Lts.run_cons_iff.1 h
      rw [← pending_of_run_nil hsilent, TerminalState.pending, hdelivered, List.flatten_cons,
        List.append_assoc, List.append_assoc, ← ih hrest]
      rfl

/-! ### Earlier replies -/

/-- What is in flight are replies to readiness queries, the first of them possibly cut. -/
def OnlyBarriers (s : TerminalState) : Prop :=
  ∃ replies : List Da1Fields, s.inFlight <:+ render (replies.map Segment.barrier)

/-- A KGP query begins with its own introducer. -/
theorem buildQuery_ne_da1 (correlationId : UInt32) :
    Kgp.buildQuery correlationId ≠ .ok Da1.buildQuery := by
  intro h
  rw [Kgp.buildQuery] at h
  split at h
  · cases h
  · rw [Except.ok.injEq, Text.asBytes_append, Text.asBytes_append] at h
    have hhead := congrArg (List.take 2) h
    rw [List.append_assoc, List.append_assoc, List.take_append_of_le_length (by decide)] at hhead
    exact absurd hhead (by decide)

/-- A KGP query determines its identifier. -/
theorem buildQuery_injective {c c' : UInt32} {request : Bytes}
    (h : Kgp.buildQuery c = .ok request) (h' : Kgp.buildQuery c' = .ok request) : c = c' := by
  have hquery : ∀ c : UInt32, Kgp.buildQuery c = .ok request → ∃ rest,
      request = Text.asBytes "\x1b_Gi=" ++ (Text.asBytes (Nat.repr c.toNat) ++ ascii ',' :: rest) ∧
        ascii ',' ∉ Text.asBytes (Nat.repr c.toNat) := by
    intro c hc
    rw [Kgp.buildQuery] at hc
    split at hc
    · cases hc
    · rw [Except.ok.injEq, Text.asBytes_append, Text.asBytes_append] at hc
      refine ⟨Text.asBytes "s=1,v=1,a=q,t=d,f=24;AAAA\x1b\\" ++ Text.asBytes "\x1b[c", ?_, ?_⟩
      · rw [← hc, List.append_assoc, List.append_assoc]
        rfl
      · intro hmem
        rw [Text.asBytes, Text.utf8_of_ascii fun d => Text.ascii_of_mem_repr] at hmem
        obtain ⟨d, hd, hcomma⟩ := List.mem_map.1 hmem
        have hlt := Text.ascii_of_mem_repr hd
        have hval : d.toNat = (ascii ',').toNat := by
          rw [← hcomma, Text.asciiByte, UInt8.toNat_ofNat']
          omega
        have hlo := (Text.isDigit_iff.1 (Text.isDigit_of_mem_repr hd)).1
        rw [hval] at hlo
        exact absurd hlo (by decide)
  obtain ⟨rest, heq, hc⟩ := hquery c h
  obtain ⟨rest', heq', hc'⟩ := hquery c' h'
  -- both identifiers end at the first comma
  have hsplit := Text.splitOnce_eq_some_iff.2 ⟨List.append_cancel_left (heq.symm.trans heq'), hc'⟩
  rw [Text.splitOnce_eq_some_iff.2 ⟨rfl, hc⟩, Option.some_inj, Prod.mk.injEq] at hsplit
  have htext := congrArg Utf8Lossy.decode hsplit.1
  rw [Utf8Lossy.decode_asBytes fun d => Text.ascii_of_mem_repr,
    Utf8Lossy.decode_asBytes fun d => Text.ascii_of_mem_repr, String.toList_inj,
    Nat.repr_inj] at htext
  exact UInt32.toNat_inj.1 htext

/-- The replies to a readiness query. -/
theorem answers_da1 {replies : List Segment} (h : Answers Da1.buildQuery replies) :
    ∃ fields, replies = [.barrier fields] := by
  generalize hq : Da1.buildQuery = query at h
  cases h with
  | da1 fields => exact ⟨fields, rfl⟩
  | kgp fields hbuild => exact absurd (hq ▸ hbuild) (buildQuery_ne_da1 _)

/-- The replies to a KGP query. -/
theorem answers_kgp {correlationId : UInt32} {request : Bytes} {replies : List Segment}
    (hbuild : Kgp.buildQuery correlationId = .ok request) (h : Answers request replies) :
    ∃ fields, replies = [kgpReply correlationId, .barrier fields] := by
  cases h with
  | da1 fields => exact absurd hbuild (buildQuery_ne_da1 _)
  | kgp fields hbuild' =>
      obtain rfl := buildQuery_injective hbuild hbuild'
      exact ⟨fields, rfl⟩

/-- **The preparation leaves nothing but replies to readiness queries in flight.** -/
theorem onlyBarriers_of_run {s t : TerminalState} {ops : List TtyOp} (h : responder.Run s ops t)
    (hops : OnlyQueries ops) (hs : OnlyBarriers s) : OnlyBarriers t := by
  refine h.invariant (I := OnlyBarriers) ?_ ?_ hs
  · intro s t hsilent hs
    obtain ⟨replies, hsuffix⟩ := hs
    obtain ⟨arrived, hflight, -⟩ := hsilent
    exact ⟨replies, List.IsSuffix.trans ⟨arrived, hflight.symm⟩ hsuffix⟩
  · intro s t op hmem hstep hs
    cases op with
    | flush =>
        obtain rfl := hstep
        exact hs
    | read bytes =>
        obtain ⟨rest, -, rfl⟩ := hstep
        exact hs
    | write wire =>
        obtain ⟨request, replies, hunwrap, hanswers, rfl⟩ := hstep
        rw [hops wire hmem, Tmux.buildReadinessQuery, Tmux.unwrap_wrapPassthrough] at hunwrap
        obtain rfl := Option.some_inj.1 hunwrap
        obtain ⟨fields, rfl⟩ := answers_da1 hanswers
        obtain ⟨earlier, before, hsuffix⟩ := hs
        refine ⟨earlier ++ [fields], before, ?_⟩
        rw [List.map_append, render_append, ← hsuffix, List.append_assoc]
        rfl

/-- **What a cut leaves of barrier replies**: bytes without an escape byte, and whole replies. -/
theorem exists_cut_of_suffix {replies : List Da1Fields} {p : Bytes}
    (h : p <:+ render (replies.map Segment.barrier)) :
    ∃ (rest : Bytes) (whole : List Da1Fields), ESC ∉ rest ∧
      p = rest ++ render (whole.map Segment.barrier) := by
  induction replies with
  | nil =>
      obtain rfl := List.suffix_nil.1 h
      exact ⟨[], [], by simp, rfl⟩
  | cons fields replies ih =>
      obtain ⟨before, hbefore⟩ := h
      rw [List.map_cons, render_cons] at hbefore
      rcases List.append_eq_append_iff.1 hbefore with ⟨rest, hbytes, rfl⟩ | ⟨gone, -, hgone⟩
      · cases before with
        | nil =>
            rw [List.nil_append] at hbytes
            exact ⟨[], fields :: replies, by simp, by rw [← hbytes]; rfl⟩
        | cons b before =>
            -- the escape byte of the reply is gone
            refine ⟨rest, replies, fun hmem => ?_, rfl⟩
            have htail : ascii '[' :: ascii '?' :: (fields.run ++ [ascii 'c']) = before ++ rest :=
              (List.cons.inj hbytes).2
            have hesc : ESC ∈ ascii '[' :: ascii '?' :: (fields.run ++ [ascii 'c']) := by
              rw [htail]
              exact List.mem_append_right _ hmem
            simp only [List.mem_cons, List.mem_append, List.not_mem_nil, or_false] at hesc
            rcases hesc with hesc | hesc | hesc | hesc
            · exact absurd hesc (by decide)
            · exact absurd hesc (by decide)
            · exact absurd (fields.mem_run hesc) (by decide)
            · exact absurd hesc (by decide)
      · exact ih ⟨gone, hgone.symm⟩

/-- No DA1 reply is found where no escape byte is. -/
theorem parseResponses_of_clean {b64 : Base64.Codec} {p : Bytes} (h : ESC ∉ p) :
    Da1.parseResponses b64 p = [] := by
  rw [Da1.parseResponses, ScanLoop.scan, ScanLoop.scanFrom_skip p.length,
    ScanLoop.scanFrom_of_le (by omega)]
  intro j _
  refine Option.map_eq_none_iff.2 (Da1.parseResponseAt_eq_none_of_head ?_)
  rw [List.head?_drop]
  intro hhead
  exact h (List.mem_of_getElem? hhead)

/-- A whole barrier reply is found. -/
theorem parseResponses_of_barrier {b64 : Base64.Codec} {rest after : Bytes} {fields : Da1Fields}
    (h : ESC ∉ rest) :
    Da1.parseResponses b64 (rest ++ ((Segment.barrier fields).bytes ++ after)) ≠ [] := by
  have hdrop : (rest ++ ((Segment.barrier fields).bytes ++ after)).drop rest.length =
      (Segment.barrier fields).bytes ++ after := List.drop_left
  have hparse : Da1.parseResponseAt b64 _ rest.length = some (fields.response b64 rest.length) :=
    fields.parseResponseAt_bytes hdrop
  rw [Da1.parseResponses, ScanLoop.scan, ScanLoop.scanFrom_skip rest.length, Nat.zero_add,
    ScanLoop.scanFrom_hit (Slices.lt_length_of_drop_ne_nil (by rw [hdrop]; simp [Segment.bytes]))
      (congrArg (Option.map _) hparse)]
  · exact List.cons_ne_nil _ _
  · intro j hj
    refine Option.map_eq_none_iff.2 (Da1.parseResponseAt_eq_none_of_head ?_)
    rw [Nat.zero_add, List.drop_append_of_le_length hj.le,
      List.head?_append_of_ne_nil _ (by simpa using hj), List.head?_drop]
    intro hhead
    exact h (List.mem_of_getElem? hhead)

/-! ### The verdict of the probe -/

/-- The reply names the identifier. -/
theorem correlates_replyControl (correlationId : UInt32) :
    Kgp.Correlates correlationId (replyControl correlationId) := by
  have hdigits : ∀ c ∈ (Nat.repr correlationId.toNat).toList, c.isDigit = true :=
    fun c hc => Text.isDigit_of_mem_repr hc
  have htext : ("i=" ++ Nat.repr correlationId.toNat).toList =
      'i' :: '=' :: (Nat.repr correlationId.toNat).toList := by
    rw [String.toList_append]
    rfl
  have hdecode : Utf8Lossy.decode (replyControl correlationId) =
      'i' :: '=' :: (Nat.repr correlationId.toNat).toList := by
    rw [replyControl, Utf8Lossy.decode_asBytes (ascii_replyText correlationId), htext]
  have hcomma : ',' ∉ 'i' :: '=' :: (Nat.repr correlationId.toNat).toList := by
    simp only [List.mem_cons, not_or]
    exact ⟨by decide, by decide, fun hmem => absurd (hdigits ',' hmem) (by decide)⟩
  refine ⟨[], (Nat.repr correlationId.toNat).toList, [], ?_, by simp, ?_⟩
  · rw [hdecode]
    exact List.splitOn_eq_singleton hcomma
  · have hle : correlationId.toNat ≤ 2 ^ 32 - 1 := Nat.le_of_lt_succ correlationId.toNat_lt
    rw [parseU32, Text.parseUnsigned_repr hle, Option.map_some, UInt32.ofNat_toNat]

/-- A list splits in one way only at the last occurrence of an item. -/
theorem append_cons_inj_of_last {α : Type*} {a b a' b' : List α} {x : α}
    (h : a ++ x :: b = a' ++ x :: b') (hb : x ∉ b) (hb' : x ∉ b') : a = a' ∧ b = b' := by
  rcases List.append_eq_append_iff.1 h with ⟨c, rfl, hc⟩ | ⟨c, rfl, hc⟩
  · cases c with
    | nil => simpa using hc
    | cons y c =>
        obtain ⟨rfl, hrest⟩ := List.cons.inj hc
        exact absurd (by rw [hrest]; simp) hb
  · cases c with
    | nil => simpa using hc.symm
    | cons y c =>
        obtain ⟨rfl, hrest⟩ := List.cons.inj hc
        exact absurd (by rw [hrest]; simp) hb'

/-- What the exchange of the probe reads when it begins with given bytes on their way. -/
theorem response_of_exchange {correlationId : UInt32} {request : Bytes} {s s' : TerminalState}
    {chunks : List Bytes} (hbuild : Kgp.buildQuery correlationId = .ok request)
    (hrun : responder.Run s (.write (Tmux.wrapPassthrough request) :: chunks.map TtyOp.read) s') :
    ∃ fields, chunks.flatten <+:
      s.pending ++ render [kgpReply correlationId, .barrier fields] := by
  obtain ⟨s₁, s₂, hsilent, ⟨request', replies, hunwrap, hanswers, rfl⟩, hreads⟩ :=
    Lts.run_cons_iff.1 hrun
  rw [Tmux.unwrap_wrapPassthrough] at hunwrap
  obtain rfl := Option.some_inj.1 hunwrap
  obtain ⟨fields, rfl⟩ := answers_kgp hbuild hanswers
  refine ⟨fields, s'.pending, ?_⟩
  rw [← pending_of_reads hreads, ← pending_of_run_nil hsilent]
  simp only [TerminalState.pending, List.append_assoc]

/-- **The verdict on what the exchange reads**: it is right exactly when no reply to an earlier
readiness query was still in flight as a whole. -/
theorem conformant_iff_no_stale {b64 : Base64.Codec} {correlationId : UInt32} {rest p : Bytes}
    {whole : List Da1Fields} {fields : Da1Fields} (hclean : ESC ∉ rest)
    (hp : p <+: rest ++ render (whole.map Segment.barrier) ++
      render [kgpReply correlationId, .barrier fields])
    (hseen : (Kgp.parseExchange b64 p correlationId).barrierSeen = true) :
    ((Kgp.parseExchange b64 p correlationId).assessment.availability = .available ∧
        (Kgp.parseExchange b64 p correlationId).assessment.conformance = .conformant) ↔
      Da1.parseResponses b64 (rest ++ render (whole.map Segment.barrier)) = [] := by
  cases whole with
  | nil =>
      have hbefore : ∀ segment ∈ [Segment.noise rest hclean, kgpReply correlationId],
          ¬ segment.IsBarrier := by
        intro segment hmem
        rcases List.mem_pair.1 hmem with rfl | rfl <;> exact not_false
      have hstream : p <+: render ([.noise rest hclean, kgpReply correlationId] ++
          .barrier fields :: []) := by
        simpa [Segment.bytes] using hp
      rw [conformant_prefix_iff hbefore hstream (Or.inl hseen), answered_iff hbefore]
      refine iff_of_true ?_ ?_
      · exact ⟨[.noise rest hclean], replyControl correlationId, _, _, [], rfl,
          correlates_replyControl correlationId, by simp [Segment.Names]⟩
      · rw [List.map_nil, render_nil, List.append_nil]
        exact parseResponses_of_clean hclean
  | cons stale whole =>
      have hbefore : ∀ segment ∈ [Segment.noise rest hclean], ¬ segment.IsBarrier := by
        intro segment hmem
        obtain rfl := List.mem_singleton.1 hmem
        exact not_false
      have hstream : p <+: render ([.noise rest hclean] ++ .barrier stale ::
          (whole.map Segment.barrier ++ [kgpReply correlationId, .barrier fields])) := by
        simpa [Segment.bytes] using hp
      rw [conformant_prefix_iff hbefore hstream (Or.inl hseen), answered_iff hbefore]
      refine iff_of_false ?_ ?_
      · -- nothing but noise stands before the stale reply
        rintro ⟨earlier, control, unsplit, clean, later, heq, -⟩
        have hmem : Segment.frame control (some okPayload) unsplit clean ∈
            [Segment.noise rest hclean] := by
          rw [heq]
          simp
        cases List.mem_singleton.1 hmem
      · rw [List.map_cons, render_cons]
        exact parseResponses_of_barrier hclean

/-- **When the verdict is right**: when the KGP exchange under tmux passthrough ends because its
predicate fired, its assessment is available and conformant exactly when no complete reply to an
earlier readiness query was in flight at its flush, the last of the run. -/
theorem available_iff_no_stale_reply (b64 : Base64.Codec) (environment : ProbeEnvironment)
    (args : KgpProbeArgs) (ops before after : List TtyOp) (receipt : ProbeReceiptV1)
    (s₀ s s₁ s₂ : TerminalState) (htmux : args.common.transport = .tmuxPassthrough)
    (hreceipt : (kgpReceipt b64 environment args).Returns ops receipt)
    (hstart : s₀.inFlight = []) (hops : ops = before ++ .flush :: after)
    (hlast : TtyOp.flush ∉ after) (hbefore : responder.Run s₀ before s)
    (hflush : responder.step s .flush s₁) (hafter : responder.Run s₁ after s₂)
    (hfired : receipt.exchange.stopReason = .capabilityAndBarrierObserved ∨
      receipt.exchange.stopReason = .barrierObserved) :
    (receipt.assessment.availability = .available ∧
        receipt.assessment.conformance = .conformant) ↔
      Da1.parseResponses b64 s.inFlight = [] := by
  obtain ⟨request, prepareOps, exchangeOps, live, hbuild, hprepare, hlive, hsplit, -, hexchange,
    hassess⟩ := kgpReceipt_returns hreceipt
  obtain ⟨deadline, reads, -, -, rfl, hloop⟩ := executeTtyExchange_returns hlive
  have hstopped := exchangeLoop_returns hloop
  obtain ⟨chunks, rfl, hresponse⟩ := hstopped.reads
  rw [List.nil_append] at hresponse
  rw [htmux, wireRequestOf] at hsplit
  -- the last flush is that of the exchange
  obtain ⟨rfl, rfl⟩ := append_cons_inj_of_last (hops.symm.trans hsplit) hlast (by simp)
  obtain ⟨replies, hsuffix⟩ := onlyBarriers_of_run hbefore
    (prepareTransport_returns hprepare).writes ⟨[], by rw [hstart]; exact List.suffix_rfl⟩
  obtain ⟨rest, whole, hclean, hflight⟩ := exists_cut_of_suffix hsuffix
  obtain rfl : s₁ = { s with delivered := [] } := hflush
  obtain ⟨fields, hprefix⟩ := response_of_exchange hbuild hafter
  rw [TerminalState.pending, List.nil_append, ← hresponse, hflight] at hprefix
  have hseen : (Kgp.parseExchange b64 live.response args.correlationId).barrierSeen = true := by
    rw [hexchange] at hfired
    rcases hstopped.why with hwhy | ⟨-, hwhy⟩
    · exact (kgpStopReason_eq_some_iff.1 hwhy).1
    · -- a loop that was cut off has another reason
      have hreason : live.stopReason = .capabilityAndBarrierObserved ∨
          live.stopReason = .barrierObserved := hfired
      rcases hwhy with hwhy | hwhy | hwhy <;> simp [hwhy] at hreason
  rw [hassess, hflight]
  exact conformant_iff_no_stale hclean hprefix hseen

/-! ### Two runs -/

/-- The reply to a DA1 query. -/
def sampleReply : Bytes := render [.barrier sampleFields]

/-- The KGP query with the identifier 31. -/
def sampleQuery : Bytes := Text.asBytes "\x1b_Gi=31,s=1,v=1,a=q,t=d,f=24;AAAA\x1b\\\x1b[c"

/-- A script of the environment, given by the attempts and the probe. -/
def environmentOf (attempts : List Attempt) (session : TtySession) : ProbeEnvironment :=
  { prepareStarted := 0, attempts := attempts, session := session, sinceEpoch := some 0,
    varOs := fun _ => none }

/-- The first reply arrives during the attempt that asked for it. -/
def promptEnvironment : ProbeEnvironment :=
  environmentOf [⟨0, sessionFrom 0 [arrives 1000000 sampleReply]⟩]
    (sessionFrom 2000000
      [arrives 3000000 (render [kgpReply 31, .barrier sampleFields])])

/-- What the probe does then. -/
def promptOps : List TtyOp :=
  [.flush, .write Tmux.buildReadinessQuery, .read sampleReply, .flush,
    .write (Tmux.wrapPassthrough sampleQuery), .read (render [kgpReply 31, .barrier sampleFields])]

theorem available_iff_no_stale_reply_prompt :
    ∃ receipt, (kgpReceipt Base64.standard promptEnvironment ⟨31, sampleArgs⟩).Returns promptOps
        receipt ∧
      receipt.assessment.availability = .available ∧
      receipt.assessment.conformance = .conformant := by
  obtain ⟨ops, receipt, h, htest⟩ :=
    Traced.exists_returns (kgpReceipt Base64.standard promptEnvironment ⟨31, sampleArgs⟩)
      (fun receipt => receipt.exchange.stopReason = .capabilityAndBarrierObserved)
      (by rfl)
  have hops : (kgpReceipt Base64.standard promptEnvironment ⟨31, sampleArgs⟩).ops = promptOps := by
    rfl
  obtain rfl : promptOps = ops := hops.symm.trans (congrArg Traced.ops h)
  have hbefore : responder.Run ⟨[], []⟩
      [.flush, .write Tmux.buildReadinessQuery, .read sampleReply] ⟨[], []⟩ :=
    .step rfl <| .step ⟨Da1.buildQuery, _, by rfl, .da1 sampleFields, rfl⟩ <|
      .silent (t := ⟨[], sampleReply⟩) ⟨sampleReply, rfl, rfl⟩ <|
      .step ⟨[], (List.append_nil _).symm, rfl⟩ (.nil _)
  have hafter : responder.Run ⟨[], []⟩ [.write (Tmux.wrapPassthrough sampleQuery),
      .read (render [kgpReply 31, .barrier sampleFields])] ⟨[], []⟩ :=
    .step ⟨sampleQuery, _, by simp, @Answers.kgp 31 _ sampleFields (by rfl),
      rfl⟩ <|
      .silent (t := ⟨[], render [kgpReply 31, .barrier sampleFields]⟩) ⟨_, rfl, rfl⟩ <|
      .step ⟨[], (List.append_nil _).symm, rfl⟩ (.nil _)
  exact ⟨receipt, h, (available_iff_no_stale_reply Base64.standard promptEnvironment
    ⟨31, sampleArgs⟩ promptOps _ _ receipt ⟨[], []⟩ ⟨[], []⟩ ⟨[], []⟩ ⟨[], []⟩ rfl h rfl rfl
    (by decide) hbefore rfl hafter (Or.inl (of_decide_eq_true htest))).2 rfl⟩

/-- The reply to the first readiness query arrives during the second attempt, and the reply to the
second query during the probe. -/
def lateEnvironment : ProbeEnvironment :=
  environmentOf [⟨0, sessionFrom 0 [⟨0, .timeout⟩]⟩,
      ⟨100000000, sessionFrom 100000000 [arrives 120000000 sampleReply]⟩]
    (sessionFrom 130000000 [arrives 220000000 sampleReply])

/-- What the probe does then. -/
def lateOps : List TtyOp :=
  [.flush, .write Tmux.buildReadinessQuery, .flush, .write Tmux.buildReadinessQuery,
    .read sampleReply, .flush, .write (Tmux.wrapPassthrough sampleQuery), .read sampleReply]

/-- **A stale reply is taken for the barrier**: the transport is ready, the terminal answers the
query before its own barrier, and the probe reports that the capability is unavailable. -/
theorem stale_reply_taken_as_barrier :
    ∃ receipt s, (kgpReceipt Base64.standard lateEnvironment ⟨31, sampleArgs⟩).Returns lateOps
        receipt ∧
      receipt.context.transport.readiness = .ready ∧ responder.Run ⟨[], []⟩ lateOps s ∧
      s.inFlight = render [kgpReply 31, .barrier sampleFields] ∧
      receipt.exchange.stopReason = .barrierObserved ∧
      kgpStopReason Base64.standard sampleReply 31 = some .barrierObserved ∧
      receipt.assessment.availability = .unavailable := by
  obtain ⟨ops, receipt, h, htest⟩ :=
    Traced.exists_returns (kgpReceipt Base64.standard lateEnvironment ⟨31, sampleArgs⟩)
      (fun receipt => receipt.context.transport.readiness = .ready ∧
        receipt.exchange.stopReason = .barrierObserved ∧
        receipt.assessment.availability = .unavailable) (by rfl)
  have hops : (kgpReceipt Base64.standard lateEnvironment ⟨31, sampleArgs⟩).ops = lateOps := by
    rfl
  obtain rfl : lateOps = ops := hops.symm.trans (congrArg Traced.ops h)
  obtain ⟨hready, hstop, hunavailable⟩ := of_decide_eq_true htest
  refine ⟨receipt, ⟨render [kgpReply 31, .barrier sampleFields], []⟩, h, hready, ?_, rfl, hstop,
    by rfl, hunavailable⟩
  have hwrite : ∀ inFlight, responder.step ⟨inFlight, []⟩ (.write Tmux.buildReadinessQuery)
      ⟨inFlight ++ sampleReply, []⟩ :=
    fun inFlight => ⟨Da1.buildQuery, _, by rfl, .da1 sampleFields, rfl⟩
  have hread : ∀ inFlight, responder.step ⟨inFlight, sampleReply⟩ (.read sampleReply)
      ⟨inFlight, []⟩ :=
    fun inFlight => ⟨[], (List.append_nil _).symm, rfl⟩
  have hdeliver : ∀ inFlight, responder.silent ⟨sampleReply ++ inFlight, []⟩
      ⟨inFlight, sampleReply⟩ :=
    fun inFlight => ⟨sampleReply, rfl, rfl⟩
  -- the second reply is still in flight when the probe flushes the input
  exact .step rfl <| .step (hwrite []) <| .step rfl <| .step (hwrite sampleReply) <|
    .silent (hdeliver sampleReply) <| .step (hread sampleReply) <| .step rfl <|
    .step ⟨sampleQuery, _, by simp, @Answers.kgp 31 _ sampleFields (by rfl),
      rfl⟩ <|
    .silent (hdeliver _) <| .step (hread _) (.nil _)

end TermInterop
