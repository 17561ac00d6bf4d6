/-
What the parsed events of an exchange are evidence of.

The frames of a stream are the protocol replies and the barrier replies that stand in it.  The
parser of an exchange records one event for every frame: it carries the bytes of the frame and its
position in the order of frames, and outside of the frames there is nothing that the parser would
have taken for one.

An assessment summarizes its own assertions.  The section on coherence says when the summary and the
assertions agree, in terms of the frames of the stream.

Main definitions:

* `TermInterop.Kgp.Frame`, `TermInterop.Kgp.lexicon` — the frames as tokens of a stream;
* `TermInterop.Coherent` — the summary of an assessment agrees with its assertions;
* `TermInterop.Kgp.Refused` — a reply reports an error, and no barrier follows.

Main results:

* `TermInterop.Kgp.recognizes` — the scan finds the frames;
* `TermInterop.exchange_evidence` — **the events are exact and ordered evidence**;
* `TermInterop.assessments_coherent_iff` — **when the assessments are coherent**.
-/

import TermInterop.Kgp
import TermInterop.Sixel

set_option relaxedAutoImplicit false
set_option autoImplicit false

namespace TermInterop

namespace Kgp

/-! ### The frames of a stream -/

/-- A frame: a protocol reply or a barrier reply. -/
inductive Frame
  | reply (body : Bytes) (unterminated : ¬ ST <:+: body)
  | barrier (reply : Da1.Reply)

namespace Frame

/-- The bytes of a frame. -/
def bytes : Frame → Bytes
  | .reply body _ => apcIntro ++ body ++ ST
  | .barrier answer => answer.bytes

/-- The event of a frame. -/
def event (b64 : Base64.Codec) (sequence : UInt32) : Frame → WireEvent
  | .reply body _ => apcEvent b64 sequence body
  | .barrier answer => (answer.response b64 0).wireEvent sequence .barrierReply

variable (b64 : Base64.Codec) (sequence : UInt32) (frame : Frame)

@[simp] theorem sequence_event : (frame.event b64 sequence).sequence = sequence := by
  cases frame <;> rfl

@[simp] theorem rawBase64_event :
    (frame.event b64 sequence).rawBase64 = b64.encode frame.bytes := by
  cases frame <;> rfl

/-- The number of an event is its only difference to the event of the same frame elsewhere. -/
theorem event_renumbered (sequence' : UInt32) :
    { frame.event b64 sequence with sequence := sequence' } = frame.event b64 sequence' := by
  cases frame <;> rfl

end Frame

/-- The frames. -/
def lexicon : Lexing.Lexicon UInt8 Frame where
  bytes := Frame.bytes
  nonempty frame := by
    cases frame with
    | reply body unterminated => simp [Frame.bytes, apcIntro]
    | barrier reply => exact Da1.lexicon.nonempty reply

/-- A frame that was observed at an offset. -/
def observedFrame (b64 : Base64.Codec) (sequence : UInt32) (offset : ℕ) (frame : Frame) :
    ObservedEvent :=
  ⟨offset, frame.event b64 sequence⟩

section Find

variable {b64 : Base64.Codec} {input : Bytes} {offset : ℕ} {sequence : UInt32}

theorem parseApcEvent_eq_some_iff_standsAt {hit : ObservedEvent × ℕ} :
    parseApcEvent b64 input offset sequence = some hit ↔
      ∃ body unterminated, lexicon.StandsAt input offset (.reply body unterminated) ∧
        hit = (⟨offset, apcEvent b64 sequence body⟩,
          offset + (lexicon.bytes (.reply body unterminated)).length) := by
  have hlength : ∀ body : Bytes, offset + (apcIntro ++ body ++ ST).length =
      offset + body.length + 5 := by
    intro body
    simp only [apcIntro, ST, List.length_append, List.length_cons, List.length_nil]
    omega
  rw [parseApcEvent_eq_some_iff]
  constructor
  · rintro ⟨body, rest, hdrop, unterminated, rfl⟩
    exact ⟨body, unterminated, ⟨rest, hdrop.symm⟩, by rw [← hlength]; rfl⟩
  · rintro ⟨body, unterminated, ⟨rest, hrest⟩, rfl⟩
    exact ⟨body, rest, hrest.symm, unterminated, by rw [← hlength]; rfl⟩

theorem parseDa1Event_eq_some_iff_standsAt {hit : ObservedEvent × ℕ} :
    parseDa1Event b64 input offset sequence = some hit ↔
      ∃ reply, lexicon.StandsAt input offset (.barrier reply) ∧
        hit = (observedFrame b64 sequence offset (.barrier reply),
          offset + (lexicon.bytes (.barrier reply)).length) := by
  simp only [parseDa1Event, Option.bind_eq_bind, Option.bind_eq_some_iff,
    Da1.parseResponseAt_eq_some_iff_standsAt, Option.some_inj]
  constructor
  · rintro ⟨_, ⟨reply, hstands, rfl⟩, rfl⟩
    exact ⟨reply, hstands, rfl⟩
  · rintro ⟨reply, hstands, rfl⟩
    exact ⟨_, ⟨reply, hstands, rfl⟩, rfl⟩

/-- Where a barrier reply stands there is no protocol reply. -/
theorem parseApcEvent_eq_none_of_barrier {reply : Da1.Reply}
    (h : lexicon.StandsAt input offset (.barrier reply)) :
    parseApcEvent b64 input offset sequence = none := by
  rw [Option.eq_none_iff_forall_ne_some]
  intro hit hhit
  obtain ⟨body, unterminated, ⟨rest, hrest⟩, -⟩ := parseApcEvent_eq_some_iff_standsAt.1 hhit
  obtain ⟨rest', hrest'⟩ := h
  -- the second bytes differ
  have hsecond := congrArg (fun bytes : Bytes => bytes[1]?) (hrest.trans hrest'.symm)
  exact absurd (Option.some_inj.1 hsecond) (by decide)

/-- **The scan recognizes the frames.** -/
theorem recognizes (b64 : Base64.Codec) (input : Bytes) :
    Lexing.Recognizes (recognizer b64 input) lexicon input (observedFrame b64) := by
  intro sequence offset hit
  show find b64 input sequence offset = some hit ↔ _
  rw [find]
  constructor
  · intro h
    cases hapc : parseApcEvent b64 input offset sequence with
    | some hit' =>
        rw [hapc] at h
        obtain rfl := Option.some_inj.1 h
        obtain ⟨body, unterminated, hstands, rfl⟩ := parseApcEvent_eq_some_iff_standsAt.1 hapc
        exact ⟨_, hstands, rfl⟩
    | none =>
        rw [hapc] at h
        obtain ⟨reply, hstands, rfl⟩ := parseDa1Event_eq_some_iff_standsAt.1 h
        exact ⟨_, hstands, rfl⟩
  · rintro ⟨frame, hstands, rfl⟩
    cases frame with
    | reply body unterminated =>
        rw [parseApcEvent_eq_some_iff_standsAt.2 ⟨body, unterminated, hstands, rfl⟩]
        rfl
    | barrier reply =>
        rw [parseApcEvent_eq_none_of_barrier hstands]
        exact parseDa1Event_eq_some_iff_standsAt.2 ⟨reply, hstands, rfl⟩

end Find

/-- The observed events of lexed frames. -/
def observedFrames (b64 : Base64.Codec) (frames : List (ℕ × Frame)) : List ObservedEvent :=
  Lexing.items (observedFrame b64) saturatingSucc 0 frames

/-- **What is observed of a stream are its frames.** -/
theorem observe_of_lexed {b64 : Base64.Codec} {input : Bytes} {frames : List (ℕ × Frame)}
    (h : Lexing.Lexed lexicon input 0 frames) : observe b64 input = observedFrames b64 frames :=
  Lexing.scanFrom_of_lexed (recognizes b64 input) h 0

theorem getElem?_observedFrames {b64 : Base64.Codec} (frames : List (ℕ × Frame)) (k : ℕ) :
    (observedFrames b64 frames)[k]? =
      frames[k]?.map fun entry => observedFrame b64 (u32FromIndex k) entry.1 entry.2 := by
  rw [observedFrames, Lexing.getElem?_items, iterate_saturatingSucc]

end Kgp

/-- The number of an event, as a number. -/
theorem toNat_u32FromIndex (index : ℕ) : (u32FromIndex index).toNat = min index (2 ^ 32 - 1) := by
  unfold u32FromIndex
  split
  · rw [UInt32.toNat_ofNat_of_lt' ‹_›, min_eq_left (by omega)]
  · rw [min_eq_right (by omega)]
    rfl

/-- **The events of an exchange are exact and ordered evidence.**  There are intervals of the
stream, one for each event, which are ordered and do not overlap.  An event has the bytes of its
interval and the number of its position; the interval alone is parsed as this one event.  Outside of
the intervals neither parser of a frame succeeds.  The loop of the parser ends within as many
rounds as the stream has bytes. -/
theorem exchange_evidence (b64 : Base64.Codec) (input : Bytes) (correlationId : UInt32) :
    (∀ fuel, input.length ≤ fuel →
      ScanLoop.loop (Kgp.recognizer b64 input) saturatingSucc input.length fuel 0 0 =
        Kgp.observe b64 input) ∧
    ∃ spans : List (ℕ × ℕ),
      spans.length = (Kgp.parseExchange b64 input correlationId).events.length ∧
      (∀ span ∈ spans, span.1 < span.2 ∧ span.2 ≤ input.length) ∧
      (spans.Pairwise fun first second => first.2 ≤ second.1) ∧
      (∀ (k : ℕ) (span : ℕ × ℕ) (event : WireEvent), spans[k]? = some span →
        (Kgp.parseExchange b64 input correlationId).events[k]? = some event →
        ∃ raw, Slices.slice? input span.1 span.2 = some raw ∧
          b64.decode event.rawBase64 = some raw ∧
          event.sequence.toNat = min k (2 ^ 32 - 1) ∧
          (Kgp.parseExchange b64 raw correlationId).events = [{ event with sequence := 0 }]) ∧
      ∀ offset, (∀ span ∈ spans, ¬ (span.1 ≤ offset ∧ offset < span.2)) → ∀ sequence,
        Kgp.parseApcEvent b64 input offset sequence = none ∧
          Kgp.parseDa1Event b64 input offset sequence = none := by
  refine ⟨fun fuel hfuel => ScanLoop.loop_fuel (by omega) (by omega), ?_⟩
  obtain ⟨frames, hframes⟩ := Lexing.Lexed.exists_lexed Kgp.lexicon input 0
  have hobserve : Kgp.observe b64 input = Kgp.observedFrames b64 frames :=
    Kgp.observe_of_lexed hframes
  have hevents : (Kgp.parseExchange b64 input correlationId).events =
      (Kgp.observedFrames b64 frames).map Kgp.ObservedEvent.event := by
    rw [Kgp.parseExchange, hobserve]
  refine ⟨frames.map fun entry => (entry.1, entry.1 + (Kgp.lexicon.bytes entry.2).length),
    ?_, ?_, ?_, ?_, ?_⟩
  · rw [hevents, List.length_map, List.length_map, Kgp.observedFrames, Lexing.length_items]
  · intro span hspan
    obtain ⟨entry, hentry, rfl⟩ := List.mem_map.1 hspan
    exact ⟨Nat.lt_add_of_pos_right (Lexing.Lexicon.length_pos _),
      (hframes.standsAt entry hentry).le⟩
  · exact List.pairwise_map.2 hframes.ordered
  · intro k span event hspan hevent
    rw [List.getElem?_map, Option.map_eq_some_iff] at hspan
    obtain ⟨⟨start, frame⟩, hentry, rfl⟩ := hspan
    have hstands := hframes.standsAt _ (List.mem_of_getElem? hentry)
    rw [hevents, List.getElem?_map, Kgp.getElem?_observedFrames, hentry] at hevent
    obtain rfl : frame.event b64 (u32FromIndex k) = event := by
      simpa [Kgp.observedFrame] using hevent
    obtain ⟨rest, hrest⟩ := hstands
    refine ⟨frame.bytes, ?_, ?_, ?_, ?_⟩
    · have hlt : start < input.length := by
        refine Slices.lt_length_of_drop_ne_nil ?_
        rw [← hrest]
        exact List.append_ne_nil_of_left_ne_nil (Kgp.lexicon.nonempty frame) rest
      exact Slices.slice?_of_drop hrest.symm hlt.le rfl
    · rw [Kgp.Frame.rawBase64_event, Base64.Codec.decode_encode]
    · rw [Kgp.Frame.sequence_event, toNat_u32FromIndex]
    · have hsingle : Lexing.Lexed Kgp.lexicon frame.bytes 0 [(0, frame)] :=
        Lexing.Lexed.single frame
      have halone : Kgp.observe b64 frame.bytes = Kgp.observedFrames b64 [(0, frame)] :=
        Kgp.observe_of_lexed hsingle
      rw [Kgp.Frame.event_renumbered, Kgp.parseExchange]
      exact congrArg (List.map Kgp.ObservedEvent.event) halone
  · intro offset hout sequence
    have hnone : ∀ frame, ¬ Kgp.lexicon.StandsAt input offset frame :=
      hframes.not_standsAt (Nat.zero_le offset) fun entry hentry =>
        hout _ (List.mem_map_of_mem hentry)
    constructor
    · rw [Option.eq_none_iff_forall_ne_some]
      intro hit hhit
      obtain ⟨body, unterminated, hstands, -⟩ := Kgp.parseApcEvent_eq_some_iff_standsAt.1 hhit
      exact hnone _ hstands
    · rw [Option.eq_none_iff_forall_ne_some]
      intro hit hhit
      obtain ⟨reply, hstands, -⟩ := Kgp.parseDa1Event_eq_some_iff_standsAt.1 hhit
      exact hnone _ hstands

/-! ### Coherence -/

/-- The summary of an assessment agrees with its assertions: it is nonconformant exactly when an
assertion failed, and conformant exactly when all passed. -/
structure Coherent (assessment : Assessment) : Prop where
  nonconformant : assessment.conformance = .nonconformant ↔
    ∃ result ∈ assessment.assertions, result.outcome = .fail
  conformant : assessment.conformance = .conformant ↔
    ∀ result ∈ assessment.assertions, result.outcome = .pass

namespace Kgp

section Assess

variable {events : List ObservedEvent} {correlationId : UInt32}

/-- The assessment of a reply is coherent when a barrier was observed, or the reply reports
success. -/
theorem coherent_assessMatchingReply_iff {reply : ObservedEvent} {barrier : Option ObservedEvent} :
    Coherent (assessMatchingReply reply barrier correlationId) ↔
      barrier.isSome ∨ reply.event.status = some "OK" := by
  cases barrier with
  | none =>
      by_cases hok : reply.event.status = some "OK"
      · refine iff_of_true ⟨?_, ?_⟩ (Or.inr hok) <;> simp [assessMatchingReply, assertion, hok]
      · refine iff_of_false (fun h => ?_) (by simp [hok])
        -- the summary is inconclusive, but the assertion about the status failed
        have hfail := h.nonconformant.2
          ⟨_, List.mem_of_getElem? (i := 2) rfl, by simp [assertion, hok]⟩
        simp [assessMatchingReply] at hfail
  | some barrier =>
      refine iff_of_true ⟨?_, ?_⟩ (Or.inl rfl) <;>
        by_cases hok : reply.event.status = some "OK" <;>
        by_cases hord : reply.offset < barrier.offset <;>
        simp [assessMatchingReply, assertion, hok, hord]

theorem coherent_assessUnmatchedReply {unmatched : ObservedEvent}
    {barrier : Option ObservedEvent} :
    Coherent (assessUnmatchedReply unmatched barrier correlationId) := by
  refine ⟨?_, ?_⟩ <;> cases barrier <;> simp [assessUnmatchedReply, assertion]

theorem coherent_assessUnavailable : Coherent assessUnavailable := by
  refine ⟨?_, ?_⟩ <;> simp [assessUnavailable, assertion]

theorem coherent_assessUnknown : Coherent assessUnknown := by
  refine ⟨?_, ?_⟩ <;> simp [assessUnknown, assertion]

/-- **When an assessment is coherent**: there is a barrier, or its first reply with the expected
identifier reports success, or there is no such reply. -/
theorem coherent_assess_iff : Coherent (assess events correlationId) ↔
    ∀ reply, firstMatching events correlationId = some reply →
      (events.find? ObservedEvent.isBarrier).isSome ∨ reply.event.status = some "OK" := by
  cases hmatch : firstMatching events correlationId with
  | some reply =>
      rw [assess_of_matching hmatch, coherent_assessMatchingReply_iff]
      constructor
      · intro h reply' heq
        obtain rfl := Option.some_inj.1 heq
        exact h
      · intro h
        exact h reply rfl
  | none =>
      rw [assess_of_no_matching hmatch]
      refine iff_of_true ?_ (by simp)
      cases (events.filter ObservedEvent.isReply).head? with
      | some unmatched => exact coherent_assessUnmatchedReply
      | none =>
          dsimp only
          split
          · exact coherent_assessUnavailable
          · exact coherent_assessUnknown

end Assess

/-! ### Coherence and frames -/

namespace Frame

/-- A protocol reply that names the identifier. -/
def Names (correlationId : UInt32) : Frame → Prop
  | .reply body _ => Correlates correlationId (splitBody body).1
  | .barrier _ => False

/-- A protocol reply that reports success. -/
def ReportsOk : Frame → Prop
  | .reply body _ => (splitBody body).2 = some "OK"
  | .barrier _ => False

/-- A barrier reply. -/
def IsBarrier : Frame → Prop
  | .reply _ _ => False
  | .barrier _ => True

variable {b64 : Base64.Codec} {sequence correlationId : UInt32} {offset : ℕ} {frame : Frame}

theorem names_iff :
    ((observedFrame b64 sequence offset frame).isReply &&
      (observedFrame b64 sequence offset frame).hasCorrelation correlationId) = true ↔
      frame.Names correlationId := by
  rw [Bool.and_eq_true]
  cases frame with
  | reply body unterminated =>
      have hcorrelation : ObservedEvent.hasCorrelation correlationId
          ⟨offset, apcEvent b64 sequence body⟩ = true ↔
            Correlates correlationId (splitBody body).1 :=
        hasCorrelation_apcEvent
      rw [Names, ← hcorrelation]
      exact and_iff_right rfl
  | barrier answer =>
      exact iff_of_false
        (fun h => absurd h.1 (by simp [ObservedEvent.isReply, observedFrame, event])) id

theorem isBarrier_iff :
    (observedFrame b64 sequence offset frame).isBarrier = true ↔ frame.IsBarrier := by
  cases frame with
  | reply body unterminated =>
      exact iff_of_false (by simp [ObservedEvent.isBarrier, observedFrame, event, apcEvent]) id
  | barrier answer => exact iff_of_true rfl trivial

theorem reportsOk_iff (h : frame.Names correlationId) :
    (observedFrame b64 sequence offset frame).event.status = some "OK" ↔ frame.ReportsOk := by
  cases frame with
  | reply body unterminated => exact Iff.rfl
  | barrier answer => exact absurd h id

end Frame

/-- **A stream is refused**: the first reply that names the identifier does not report success, and
there is no barrier. -/
def Refused (correlationId : UInt32) (frames : List Frame) : Prop :=
  (∀ frame ∈ frames, ¬ frame.IsBarrier) ∧
    ∃ before reply after, frames = before ++ reply :: after ∧
      (∀ frame ∈ before, ¬ frame.Names correlationId) ∧ reply.Names correlationId ∧
      ¬ reply.ReportsOk

section Frames

variable {b64 : Base64.Codec} {correlationId : UInt32}

/-- The first reply with the expected identifier is the first frame that names it. -/
theorem firstMatching_items_iff {sequence : UInt32} {frames : List (ℕ × Frame)}
    {observed : ObservedEvent} :
    firstMatching (Lexing.items (observedFrame b64) saturatingSucc sequence frames)
      correlationId = some observed ↔
      ∃ before entry after, frames = before ++ entry :: after ∧
        (∀ entry ∈ before, ¬ entry.2.Names correlationId) ∧ entry.2.Names correlationId ∧
        observed = observedFrame b64 (saturatingSucc^[before.length] sequence) entry.1 entry.2 := by
  induction frames generalizing sequence with
  | nil => simp [Lexing.items, firstMatching]
  | cons entry frames ih =>
      obtain ⟨offset, frame⟩ := entry
      rw [Lexing.items, firstMatching_cons]
      by_cases hnames : frame.Names correlationId
      · rw [if_pos (Frame.names_iff.2 hnames), Option.some_inj]
        constructor
        · rintro rfl
          exact ⟨[], (offset, frame), frames, rfl, by simp, hnames, rfl⟩
        · rintro ⟨before, entry, after, heq, hbefore, -, rfl⟩
          cases before with
          | nil =>
              obtain ⟨rfl, rfl⟩ := List.cons.inj heq
              rfl
          | cons entry' before =>
              obtain ⟨rfl, rfl⟩ := List.cons.inj heq
              exact absurd hnames (hbefore _ List.mem_cons_self)
      · rw [if_neg (mt Frame.names_iff.1 hnames), ih]
        constructor
        · rintro ⟨before, entry, after, rfl, hbefore, hentry, rfl⟩
          exact ⟨(offset, frame) :: before, entry, after, rfl,
            List.forall_mem_cons.2 ⟨hnames, hbefore⟩, hentry, rfl⟩
        · rintro ⟨before, entry, after, heq, hbefore, hentry, rfl⟩
          cases before with
          | nil =>
              obtain ⟨rfl, rfl⟩ := List.cons.inj heq
              exact absurd hentry hnames
          | cons entry' before =>
              obtain ⟨rfl, rfl⟩ := List.cons.inj heq
              exact ⟨before, entry, after, rfl, (List.forall_mem_cons.1 hbefore).2, hentry, rfl⟩

/-- A barrier is observed exactly when a frame is one. -/
theorem find?_isBarrier_items_isSome {sequence : UInt32} {frames : List (ℕ × Frame)} :
    ((Lexing.items (observedFrame b64) saturatingSucc sequence frames).find?
      ObservedEvent.isBarrier).isSome ↔ ∃ entry ∈ frames, entry.2.IsBarrier := by
  induction frames generalizing sequence with
  | nil => simp [Lexing.items]
  | cons entry frames ih =>
      rw [Lexing.items, List.find?_isSome, List.exists_mem_cons_iff, ← List.find?_isSome,
        ih, Frame.isBarrier_iff, List.exists_mem_cons_iff]

/-- **When the assessment of a stream is coherent.** -/
theorem coherent_of_lexed_iff {input : Bytes} {frames : List (ℕ × Frame)}
    (h : Lexing.Lexed lexicon input 0 frames) :
    Coherent (parseExchange b64 input correlationId).assessment ↔
      ¬ Refused correlationId (frames.map Prod.snd) := by
  rw [parseExchange, observe_of_lexed h, coherent_assess_iff, observedFrames,
    find?_isBarrier_items_isSome]
  constructor
  · rintro hcoherent ⟨hnone, before, reply, after, heq, hbefore, hnames, hfail⟩
    obtain ⟨before, rest, rfl, rfl, hrest⟩ := List.map_eq_append_iff.1 heq
    obtain ⟨⟨offset, reply⟩, after, rfl, rfl, rfl⟩ := List.map_eq_cons_iff.1 hrest
    rcases hcoherent _ (firstMatching_items_iff.2 ⟨before, (offset, reply), after, rfl,
      fun entry hentry => hbefore _ (List.mem_map_of_mem hentry), hnames, rfl⟩) with hbarrier | hok
    · obtain ⟨entry, hentry, hbarrier⟩ := hbarrier
      exact hnone _ (List.mem_map_of_mem hentry) hbarrier
    · exact hfail ((Frame.reportsOk_iff hnames).1 hok)
  · intro hnot observed hmatch
    obtain ⟨before, entry, after, rfl, hbefore, hnames, rfl⟩ := firstMatching_items_iff.1 hmatch
    by_contra hcontra
    rw [not_or, Frame.reportsOk_iff hnames] at hcontra
    refine hnot ⟨?_, before.map Prod.snd, entry.2, after.map Prod.snd, by simp, ?_, hnames,
      hcontra.2⟩
    · intro frame hframe hbarrier
      obtain ⟨entry', hentry', rfl⟩ := List.mem_map.1 hframe
      exact hcontra.1 ⟨entry', hentry', hbarrier⟩
    · intro frame hframe
      obtain ⟨entry', hentry', rfl⟩ := List.mem_map.1 hframe
      exact hbefore entry' hentry'

end Frames

end Kgp

/-- The assessment of the Sixel adapter is always coherent. -/
theorem Sixel.coherent_parseExchange (b64 : Base64.Codec) (input : Bytes) :
    Coherent (Sixel.parseExchange b64 input).assessment := by
  simp only [Sixel.parseExchange]
  split_ifs <;> refine ⟨?_, ?_⟩ <;> simp [Sixel.assertion]

/-- **When the assessments are coherent**: unless the stream is refused, that is, unless its first
reply with the expected identifier does not report success and there is no barrier. -/
theorem assessments_coherent_iff (b64 : Base64.Codec) (input : Bytes) (correlationId : UInt32) :
    (Coherent (Kgp.parseExchange b64 input correlationId).assessment ∧
      Coherent (Sixel.parseExchange b64 input).assessment) ↔
      ∀ frames, Lexing.Lexed Kgp.lexicon input 0 frames →
        ¬ Kgp.Refused correlationId (frames.map Prod.snd) := by
  rw [and_iff_left (Sixel.coherent_parseExchange b64 input)]
  constructor
  · intro h frames hframes
    exact (Kgp.coherent_of_lexed_iff hframes).1 h
  · intro h
    obtain ⟨frames, hframes⟩ := Lexing.Lexed.exists_lexed Kgp.lexicon input 0
    exact (Kgp.coherent_of_lexed_iff hframes).2 (h frames hframes)

/-- An error reply without a barrier: an assertion failed, but the summary is inconclusive. -/
theorem refusal_summarized_as_inconclusive :
    ¬ Coherent (Kgp.parseExchange Base64.standard
      (Text.asBytes "\x1b_Gi=31;ENODATA\x1b\\") 31).assessment := by
  intro h
  have hfail : ∃ result ∈ (Kgp.parseExchange Base64.standard
      (Text.asBytes "\x1b_Gi=31;ENODATA\x1b\\") 31).assessment.assertions,
        result.outcome = .fail := by
    decide
  have hsummary : (Kgp.parseExchange Base64.standard
      (Text.asBytes "\x1b_Gi=31;ENODATA\x1b\\") 31).assessment.conformance = .inconclusive := by
    rfl
  rw [h.nonconformant.2 hfail] at hsummary
  cases hsummary

end TermInterop
