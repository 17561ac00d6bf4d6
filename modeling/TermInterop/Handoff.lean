/-
What a dispatcher believes, and what the consumer has received.

Any number of dispatchers talk to one listener, and so does whoever else finds the socket.  The line
of an intent is printed while its connection is the one being served, and the receipt that says
`forwarded` is sent after the line was flushed.  As a connection is private and each is served once,
a dispatcher that reads this receipt reads it about its own intent.

The calls of the listener say by themselves which lines it has printed, and for which connections;
`Delivered` collects this for a transcript of any length, by induction on its turns.  What was read
from a connection and sent to it is then compared with the state of the streams.

Main definitions:

* `TermInterop.Callback.handoffs` — the lines of a transcript, each with its connection;
* `TermInterop.Callback.Listening` — a run of one listener and of processes that make none of its
  calls;
* `TermInterop.Callback.Exchange` — a run of one listener and any number of dispatchers;
* `TermInterop.Callback.completeLines` — the lines that a reader of the output has seen.

Main results:

* `TermInterop.Callback.Turns.delivered` — what the turns of a listener have delivered;
* `TermInterop.Callback.exists_delivery` — a valid intent can be delivered;
* `TermInterop.Callback.forwarded_means_handed_over` — **a forwarded intent has been printed**, once
  and for its own connection, and nothing else is ever printed.
-/

import TermInterop.Framing
import TermInterop.Transcripts

set_option relaxedAutoImplicit false
set_option autoImplicit false

namespace TermInterop

namespace Callback

open Sockets (Event Net SocketCall Stream World readsOf writesOf printedOf opensOf readBy writtenBy
  printedBy openedBy)

/-! ### Lines and their connections -/

/-- The connection that is being served after a call. -/
def servedAfter (current : Option Stream) : Event → Option Stream
  | ⟨.accept, .ok u⟩ => some u
  | _ => current

/-- The line that a call prints, for the connection that is being served. -/
def handedBy : Option Stream → Event → List (Stream × Bytes)
  | some u, ⟨.print line, _⟩ => [(u, line)]
  | _, _ => []

/-- The lines printed while a connection is served, from some moment on. -/
def handoffsFrom : Option Stream → List Event → List (Stream × Bytes)
  | _, [] => []
  | current, e :: events => handedBy current e ++ handoffsFrom (servedAfter current e) events

/-- **The lines of a transcript**, each with the connection that it was printed for.  The
announcement of the endpoint is printed for none. -/
def handoffs (events : List Event) : List (Stream × Bytes) := handoffsFrom none events

theorem handoffsFrom_append (current : Option Stream) (e₁ e₂ : List Event) :
    handoffsFrom current (e₁ ++ e₂) =
      handoffsFrom current e₁ ++ handoffsFrom (e₁.foldl servedAfter current) e₂ := by
  induction e₁ generalizing current with
  | nil => rfl
  | cons e e₁ ih => simp [handoffsFrom, ih]

/-- A line is printed for a connection that was accepted before. -/
theorem accept_mem_of_handoffsFrom {current : Option Stream} {events : List Event} {u : Stream}
    {line : Bytes} (h : (u, line) ∈ handoffsFrom current events) :
    current = some u ∨ ⟨.accept, .ok u⟩ ∈ events := by
  induction events generalizing current with
  | nil => cases h
  | cons e events ih =>
      rw [handoffsFrom, List.mem_append] at h
      rcases h with h | h
      · cases current with
        | none => cases h
        | some v =>
            obtain ⟨op, answer⟩ := e
            cases op with
            | print bytes =>
                obtain ⟨rfl, -⟩ := Prod.mk.inj (List.mem_singleton.1 h)
                exact Or.inl rfl
            | _ => cases h
      · rcases ih h with hserved | hmem
        · obtain ⟨op, answer⟩ := e
          cases op with
          | accept =>
              cases answer with
              | ok v =>
                  obtain rfl := Option.some.inj hserved
                  exact Or.inr List.mem_cons_self
              | error message => exact Or.inl hserved
          | _ => exact Or.inl hserved
        · exact Or.inr (List.mem_cons_of_mem e hmem)

/-- A call that neither accepts nor prints. -/
structure Quiet (e : Event) : Prop where
  served : ∀ current, servedAfter current e = current
  handed : ∀ current, handedBy current e = []
  printed : printedBy e = []

section Quiet

variable {u : Stream} {e : Event} {events : List Event}

theorem ReadOn.quiet (h : ReadOn u e) : Quiet e := by
  obtain ⟨limit, answer, rfl⟩ := h
  exact ⟨fun _ => rfl, fun current => by cases current <;> rfl, rfl⟩

theorem WriteOn.quiet (h : WriteOn u e) : Quiet e := by
  obtain ⟨bytes, answer, rfl⟩ := h
  exact ⟨fun _ => rfl, fun current => by cases current <;> rfl, rfl⟩

theorem Idle.quiet (h : Idle e) : Quiet e := by
  obtain ⟨op, answer⟩ := e
  cases op with
  | print bytes => exact absurd rfl (h.prints bytes answer)
  | accept =>
      cases answer with
      | ok u => cases h.opens
      | error message => exact ⟨fun _ => rfl, fun current => by cases current <;> rfl, rfl⟩
  | _ => exact ⟨fun _ => rfl, fun current => by cases current <;> rfl, rfl⟩

theorem handoffsFrom_quiet (h : ∀ e ∈ events, Quiet e) (current : Option Stream) :
    handoffsFrom current events = [] ∧ events.foldl servedAfter current = current := by
  induction events with
  | nil => exact ⟨rfl, rfl⟩
  | cons e events ih =>
      obtain ⟨hserved, hhanded, -⟩ := h e List.mem_cons_self
      have hrest := ih fun d hd => h d (List.mem_cons_of_mem e hd)
      simp only [handoffsFrom, hhanded, hserved, List.nil_append, List.foldl_cons]
      exact hrest

theorem printedOf_quiet (h : ∀ e ∈ events, Quiet e) : printedOf events = [] :=
  List.flatMap_eq_nil_iff.2 fun e he => (h e he).printed

end Quiet

/-- The lines of one turn are printed for its connection. -/
theorem handoffsFrom_accept (current : Option Stream) (u : Stream) (events : List Event) :
    handoffsFrom current (⟨.accept, .ok u⟩ :: events) = handoffsFrom (some u) events := by
  cases current <;> rfl

theorem handoffsFrom_handing {line : Bytes} {events : List Event} {u : Stream}
    {r : Option (Except String Unit)} (h : Handing line events r) :
    (handoffsFrom (some u) events = [] ∧ printedOf events = [] ∧ r = none) ∨
      (handoffsFrom (some u) events = [(u, line)] ∧ printedOf events <+: line) := by
  cases h with
  | start => exact Or.inl ⟨rfl, rfl, rfl⟩
  | failed failure =>
      refine Or.inr ⟨rfl, ?_⟩
      simp only [printedOf, List.flatMap_cons, List.flatMap_nil, List.append_nil, printedBy]
      exact List.take_prefix _ _
  | printed => exact Or.inr ⟨rfl, by simp [printedBy, acceptedBytes]⟩
  | unflushed message => exact Or.inr ⟨rfl, by simp [printedBy, acceptedBytes]⟩
  | flushed => exact Or.inr ⟨rfl, by simp [printedBy, acceptedBytes]⟩

theorem Handing.served {line : Bytes} {events : List Event} {r : Option (Except String Unit)}
    (h : Handing line events r) (current : Option Stream) :
    events.foldl servedAfter current = current := by
  cases h <;> rfl

/-! ### One connection -/

/-- A call that uses no stream but one. -/
structure On (u : Stream) (e : Event) : Prop where
  opens : openedBy e = none
  reads : ∀ v, v ≠ u → readBy v e = []
  writes : ∀ v, v ≠ u → writtenBy v e = []

section On

variable {u : Stream} {e : Event} {events : List Event}

theorem ReadOn.on (h : ReadOn u e) : On u e := by
  obtain ⟨limit, answer, rfl⟩ := h
  refine ⟨rfl, fun v hv => ?_, fun v _ => rfl⟩
  cases answer with
  | ok bytes => exact if_neg (Ne.symm hv)
  | error message => rfl

theorem WriteOn.on (h : WriteOn u e) : On u e := by
  obtain ⟨bytes, answer, rfl⟩ := h
  refine ⟨rfl, fun v _ => rfl, fun v hv => ?_⟩
  cases answer with
  | ok count => exact if_neg (Ne.symm hv)
  | error message => rfl

theorem Idle.on (h : Idle e) : On u e :=
  ⟨h.opens, fun v _ => h.reads v, fun v _ => h.writes v⟩

theorem Handing.on {line : Bytes} {r : Option (Except String Unit)}
    (h : Handing line events r) : ∀ e ∈ events, On u e := by
  have hprint : ∀ {answer}, On u ⟨.print line, answer⟩ :=
    ⟨rfl, fun _ _ => rfl, fun _ _ => rfl⟩
  have hflush : ∀ {answer}, On u ⟨.flush, answer⟩ := ⟨rfl, fun _ _ => rfl, fun _ _ => rfl⟩
  cases h <;> simp [hprint, hflush]

theorem Answers.on {payload : Bytes} (h : Answers u payload events) : ∀ e ∈ events, On u e :=
  fun e he => (h.only e he).elim WriteOn.on Idle.on

theorem Answers.quiet {payload : Bytes} (h : Answers u payload events) : ∀ e ∈ events, Quiet e :=
  fun e he => (h.only e he).elim WriteOn.quiet Idle.quiet

theorem opensOf_on (h : ∀ e ∈ events, On u e) : opensOf events = [] :=
  List.filterMap_eq_nil_iff.2 fun e he => (h e he).opens

theorem readsOf_on (h : ∀ e ∈ events, On u e) {v : Stream} (hv : v ≠ u) : readsOf v events = [] :=
  List.flatMap_eq_nil_iff.2 fun e he => (h e he).reads v hv

theorem writesOf_on (h : ∀ e ∈ events, On u e) {v : Stream} (hv : v ≠ u) :
    writesOf v events = [] :=
  List.flatMap_eq_nil_iff.2 fun e he => (h e he).writes v hv

/-- Printing a line moves no byte of a connection. -/
theorem Handing.streams {line : Bytes} {r : Option (Except String Unit)}
    (h : Handing line events r) (v : Stream) : readsOf v events = [] ∧ writesOf v events = [] := by
  cases h <;> exact ⟨rfl, rfl⟩

theorem Answers.reads {payload : Bytes} (h : Answers u payload events) (v : Stream) :
    readsOf v events = [] := by
  refine List.flatMap_eq_nil_iff.2 fun e he => ?_
  rcases h.only e he with ⟨_, _, rfl⟩ | hidle
  · rfl
  · exact hidle.reads v

theorem writesOf_readOn (h : ∀ e ∈ events, ReadOn u e) (v : Stream) : writesOf v events = [] := by
  refine List.flatMap_eq_nil_iff.2 fun e he => ?_
  obtain ⟨_, _, rfl⟩ := h e he
  rfl

end On

/-! ### What the turns of a listener have delivered -/

section Delivered

variable {b64 : Base64.CanonicalCodec} {json : CallbackJson} {endpoint : EndpointId}
  {u : Stream} {events : List Event}

/-- **What a transcript says about the lines and the receipts.** -/
structure Delivered (b64 : Base64.CanonicalCodec) (json : CallbackJson) (endpoint : EndpointId)
    (events : List Event) : Prop where
  anywhere : ∀ current, handoffsFrom current events = handoffs events
  printed : printedOf events <+: (handoffs events).flatMap Prod.snd
  /-- Every connection has at most one line. -/
  opens : ((handoffs events).map Prod.fst).Sublist (opensOf events)
  /-- Every line is that of a valid intent that came from its connection. -/
  requests : ∀ u line, (u, line) ∈ handoffs events →
    ∃ intent, Carries json (readsOf u events) intent ∧ IsRequest b64 endpoint intent ∧
      line = serializedJson intent.toVec
  /-- Who was told that an intent is forwarded has a line that was flushed before. -/
  forwarded : ∀ u payload rest receipt, payload.length ≤ MAX_FRAME_BYTES →
    writesOf u events = frame payload ++ rest → json.receipt payload = some receipt →
    receipt.state = .forwarded →
      ∃ e₁ e₂ line, events = e₁ ++ ⟨.flush, .ok ()⟩ :: e₂ ∧ ∀ current,
        (u, line) ∈ handoffsFrom current e₁ ∧
          printedOf e₁ = (handoffsFrom current e₁).flatMap Prod.snd
  strangers : ∀ u, u ∉ opensOf events → readsOf u events = [] ∧ writesOf u events = []

theorem frame_ne_nil {payload rest : Bytes} : frame payload ++ rest ≠ [] := by
  simp [frame, toBeBytes]

/-- The receipt that is read from an answer is the one that was sent. -/
theorem Answers.receipt_eq {sent receipt : IntentReceiptV1} {payload rest : Bytes}
    (h : Answers u sent.toVec events) (hlength : payload.length ≤ MAX_FRAME_BYTES)
    (hwrites : writesOf u events = frame payload ++ rest)
    (hparse : json.receipt payload = some receipt) : receipt = sent := by
  have hbounded := h.bounded (by rw [hwrites]; exact frame_ne_nil)
  have hmax : MAX_FRAME_BYTES < 2 ^ 32 := by decide
  obtain ⟨more, hmore⟩ := h.sent
  rw [hwrites, List.append_assoc, ← List.append_nil (frame sent.toVec)] at hmore
  obtain ⟨rfl, -⟩ := frame_append_inj (by omega) (by omega) hmore
  rw [json.receipt_toVec] at hparse
  exact (Option.some.inj hparse).symm

/-- A connection that was accepted and is the only one in use. -/
theorem strangers_accept (h : ∀ e ∈ events, On u e) (v : Stream)
    (hv : v ∉ opensOf (⟨.accept, .ok u⟩ :: events)) :
    readsOf v (⟨.accept, .ok u⟩ :: events) = [] ∧ writesOf v (⟨.accept, .ok u⟩ :: events) = [] := by
  have hne : v ≠ u := by
    rintro rfl
    exact hv (by simp [Sockets.opensOf_cons, openedBy])
  exact ⟨readsOf_on h hne, writesOf_on h hne⟩

theorem opensOf_accept (h : ∀ e ∈ events, On u e) : opensOf (⟨.accept, .ok u⟩ :: events) = [u] := by
  rw [Sockets.opensOf_cons, opensOf_on h]
  rfl

/-- A turn that hands nothing on prints nothing. -/
theorem Accepting.silent (h : Accepting json endpoint events) :
    (∀ current, handoffsFrom current events = []) ∧ printedOf events = [] := by
  have haccept : ∀ {u : Stream} {calls : List Event}, (∀ e ∈ calls, Quiet e) →
      (∀ current, handoffsFrom current (⟨.accept, .ok u⟩ :: calls) = []) ∧
        printedOf (⟨.accept, .ok u⟩ :: calls) = [] := by
    intro u calls hcalls
    refine ⟨fun current => ?_, ?_⟩
    · rw [handoffsFrom_accept, (handoffsFrom_quiet hcalls _).1]
    · rw [Sockets.printedOf_cons, printedOf_quiet hcalls]
      rfl
  cases h with
  | idle hidle =>
      have hquiet : ∀ e ∈ events, Quiet e := fun e he => (hidle e he).quiet
      exact ⟨fun current => (handoffsFrom_quiet hquiet current).1, printedOf_quiet hquiet⟩
  | reading hreads => exact haccept fun e he => (hreads e he).elim ReadOn.quiet Idle.quiet
  | refused hreads _ _ hanswers =>
      exact haccept (List.forall_mem_append.2 ⟨fun e he => (hreads e he).quiet, hanswers.quiet⟩)

/-- A turn that hands nothing on has delivered nothing. -/
theorem Accepting.delivered (h : Accepting json endpoint events) :
    Delivered b64 json endpoint events := by
  obtain ⟨hnone, hprinted⟩ := h.silent
  have hnothing : handoffs events = [] := hnone none
  refine ⟨fun current => (hnone current).trans (hnone none).symm, ?_, ?_, ?_, ?_, ?_⟩
  · rw [hprinted]
    exact List.nil_prefix
  · rw [hnothing]
    exact List.nil_sublist _
  · intro u line hmem
    rw [hnothing] at hmem
    cases hmem
  · intro v payload rest receipt hlength hwrites hparse hstate
    have hsomething : writesOf v events ≠ [] := by
      rw [hwrites]
      exact frame_ne_nil
    cases h with
    | idle hidle =>
        exact absurd (List.flatMap_eq_nil_iff.2 fun e he => (hidle e he).writes v) hsomething
    | @reading u reads hreads =>
        refine absurd (List.flatMap_eq_nil_iff.2 fun e he => ?_) hsomething
        rcases List.mem_cons.1 he with rfl | he
        · rfl
        · rcases hreads e he with ⟨_, _, rfl⟩ | hidle
          · rfl
          · exact hidle.writes v
    | @refused u reads writes intent hreads hcarries hne hanswers =>
        rw [Sockets.writesOf_cons, Sockets.writesOf_append, writesOf_readOn hreads] at hwrites
        by_cases hv : v = u
        · -- the rejection is not a receipt of this kind
          subst hv
          rw [hanswers.receipt_eq hlength hwrites hparse] at hstate
          cases hstate
        · rw [writesOf_on hanswers.on hv] at hwrites
          exact absurd hwrites.symm frame_ne_nil
  · cases h with
    | idle hidle =>
        exact fun u _ => ⟨List.flatMap_eq_nil_iff.2 fun e he => (hidle e he).reads u,
          List.flatMap_eq_nil_iff.2 fun e he => (hidle e he).writes u⟩
    | reading hreads =>
        exact strangers_accept fun e he => (hreads e he).elim ReadOn.on Idle.on
    | refused hreads _ _ hanswers =>
        exact strangers_accept
          (List.forall_mem_append.2 ⟨fun e he => (hreads e he).on, hanswers.on⟩)

/-- The lines of a turn that hands an intent on. -/
theorem handoffs_handing {reads prints writes : List Event} {line : Bytes}
    {r : Option (Except String Unit)} (hreads : ∀ e ∈ reads, ReadOn u e)
    (hhanding : Handing line prints r) (hwrites : ∀ e ∈ writes, Quiet e)
    (current : Option Stream) :
    handoffsFrom current (⟨.accept, .ok u⟩ :: (reads ++ (prints ++ writes))) =
        handoffsFrom (some u) prints ∧
      printedOf (⟨.accept, .ok u⟩ :: (reads ++ (prints ++ writes))) = printedOf prints := by
  have hquiet : ∀ e ∈ reads, Quiet e := fun e he => (hreads e he).quiet
  obtain ⟨hnone, hcurrent⟩ := handoffsFrom_quiet hquiet (some u)
  constructor
  · rw [handoffsFrom_accept, handoffsFrom_append, hnone, hcurrent, List.nil_append,
      handoffsFrom_append, hhanding.served, (handoffsFrom_quiet hwrites _).1, List.append_nil]
  · rw [Sockets.printedOf_cons, Sockets.printedOf_append, Sockets.printedOf_append,
      printedOf_quiet hquiet, printedOf_quiet hwrites, List.append_nil]
    rfl

/-- A turn that hands an intent on: what is printed is its line, for its connection. -/
theorem delivered_handing {reads prints writes : List Event} {intent : OpenIntentV1}
    {r : Option (Except String Unit)} (hreads : ∀ e ∈ reads, ReadOn u e)
    (hcarries : Carries json (readsOf u reads) intent) (hrequest : IsRequest b64 endpoint intent)
    (hhanding : Handing (serializedJson intent.toVec) prints r)
    (hquiet : ∀ e ∈ writes, Quiet e) (hon : ∀ e ∈ writes, On u e)
    (hnoReads : readsOf u writes = [])
    (hforwarded : ∀ payload rest receipt, payload.length ≤ MAX_FRAME_BYTES →
      writesOf u writes = frame payload ++ rest → json.receipt payload = some receipt →
      receipt.state = .forwarded → r = some (.ok ())) :
    Delivered b64 json endpoint (⟨.accept, .ok u⟩ :: (reads ++ (prints ++ writes))) := by
  have hlines := handoffs_handing hreads hhanding hquiet
  have hall : ∀ e ∈ reads ++ (prints ++ writes), On u e :=
    List.forall_mem_append.2 ⟨fun e he => (hreads e he).on,
      List.forall_mem_append.2 ⟨hhanding.on, hon⟩⟩
  have hwrites : ∀ v, writesOf v (⟨.accept, .ok u⟩ :: (reads ++ (prints ++ writes))) =
      writesOf v writes := by
    intro v
    rw [Sockets.writesOf_cons, Sockets.writesOf_append, Sockets.writesOf_append,
      writesOf_readOn hreads, (hhanding.streams v).2]
    rfl
  have hreadsOf : readsOf u (⟨.accept, .ok u⟩ :: (reads ++ (prints ++ writes))) =
      readsOf u reads := by
    rw [Sockets.readsOf_cons, Sockets.readsOf_append, Sockets.readsOf_append,
      (hhanding.streams u).1, hnoReads, List.append_nil, List.append_nil]
    rfl
  refine ⟨fun current => (hlines current).1.trans (hlines none).1.symm, ?_, ?_, ?_, ?_,
    strangers_accept hall⟩
  · rw [(hlines none).2, handoffs, (hlines none).1]
    rcases handoffsFrom_handing hhanding with ⟨-, hprinted, -⟩ | ⟨hhanded, hprinted⟩
    · rw [hprinted]
      exact List.nil_prefix
    · rw [hhanded]
      simpa using hprinted
  · rw [handoffs, (hlines none).1, opensOf_accept hall]
    rcases handoffsFrom_handing hhanding with ⟨hhanded, -, -⟩ | ⟨hhanded, -⟩
    · rw [hhanded]
      exact List.nil_sublist _
    · rw [hhanded]
      exact List.Sublist.refl _
  · intro v line hmem
    rw [handoffs, (hlines none).1] at hmem
    rcases handoffsFrom_handing hhanding with ⟨hhanded, -, -⟩ | ⟨hhanded, -⟩
    · rw [hhanded] at hmem
      cases hmem
    · rw [hhanded, List.mem_singleton] at hmem
      obtain ⟨rfl, rfl⟩ := Prod.mk.inj hmem
      rw [hreadsOf]
      exact ⟨intent, hcarries, hrequest, rfl⟩
  · intro v payload rest receipt hlength hw hparse hstate
    rw [hwrites] at hw
    obtain rfl : v = u := by
      by_contra hv
      rw [writesOf_on hon hv] at hw
      exact frame_ne_nil hw.symm
    obtain rfl := hforwarded payload rest receipt hlength hw hparse hstate
    cases hhanding with
    | flushed =>
        refine ⟨⟨.accept, .ok v⟩ :: (reads ++ [⟨.print (serializedJson intent.toVec), .ok ()⟩]),
          writes, serializedJson intent.toVec, by simp, fun current => ?_⟩
        have hprint : Handing (serializedJson intent.toVec)
            [⟨.print (serializedJson intent.toVec), .ok ()⟩] none := .printed
        have hbefore := handoffs_handing hreads hprint (List.forall_mem_nil Quiet) current
        rw [List.append_nil] at hbefore
        rw [hbefore.1, hbefore.2]
        simp [handoffsFrom, handedBy, printedBy, acceptedBytes]

/-- **What one turn has delivered.** -/
theorem Turn.delivered (h : Turn b64 json endpoint events) :
    Delivered b64 json endpoint events := by
  cases h with
  | accepting haccepting => exact haccepting.delivered
  | @handing u reads prints intent r hreads hcarries hrequest hhanding =>
      have hdelivered := delivered_handing hreads hcarries hrequest hhanding
        (List.forall_mem_nil Quiet) (List.forall_mem_nil (On u)) rfl
        fun _ _ _ _ hwrites => absurd hwrites.symm frame_ne_nil
      rwa [List.append_nil] at hdelivered
  | @answered u reads prints writes intent r hreads hcarries hrequest hhanding hanswers =>
      refine delivered_handing hreads hcarries hrequest hhanding hanswers.quiet hanswers.on
        (hanswers.reads u) fun payload rest receipt hlength hwrites hparse hstate => ?_
      rw [hanswers.receipt_eq hlength hwrites hparse] at hstate
      cases r with
      | ok a => rfl
      | error message => cases hstate

/-- A turn that breaks no line has printed its lines completely. -/
theorem Turn.printed_eq (h : Turn b64 json endpoint events) (hunbroken : Unbroken events) :
    printedOf events = (handoffs events).flatMap Prod.snd := by
  have hpair : ∀ {u line prints r}, Handing line prints r → Unbroken prints →
      printedOf prints = (handoffsFrom (some u) prints).flatMap Prod.snd := by
    intro u line prints r hhanding hprints
    cases hhanding with
    | failed failure => exact absurd List.mem_cons_self (hprints _ failure)
    | _ => simp [handoffsFrom, handedBy, printedBy, acceptedBytes]
  cases h with
  | accepting haccepting =>
      obtain ⟨hnone, hprinted⟩ := haccepting.silent
      rw [hprinted, handoffs, hnone]
      rfl
  | @handing u reads prints intent r hreads _ _ hhanding =>
      obtain ⟨hhanded, hprinted⟩ := handoffs_handing hreads hhanding
        (List.forall_mem_nil Quiet) none
      rw [List.append_nil] at hhanded hprinted
      rw [hprinted, handoffs, hhanded]
      exact hpair hhanding fun bytes failure hmem => hunbroken bytes failure
        (List.mem_cons_of_mem _ (List.mem_append_right reads hmem))
  | @answered u reads prints writes intent r hreads _ _ hhanding hanswers =>
      obtain ⟨hhanded, hprinted⟩ := handoffs_handing hreads hhanding hanswers.quiet none
      rw [hprinted, handoffs, hhanded]
      exact hpair hhanding fun bytes failure hmem => hunbroken bytes failure
        (List.mem_cons_of_mem _ (List.mem_append_right reads (List.mem_append_left writes hmem)))

/-- **What the turns of a listener have delivered**, as each connection is opened once. -/
theorem Turns.delivered (h : Turns b64 json endpoint events) (hopens : (opensOf events).Nodup) :
    Delivered b64 json endpoint events := by
  induction h with
  | last hturn => exact hturn.delivered
  | @cons turn events hturn hunbroken hturns ih =>
      rw [Sockets.opensOf_append, List.nodup_append] at hopens
      obtain ⟨-, hnodup, hdisjoint⟩ := hopens
      have hfirst := hturn.delivered
      have hrest := ih hnodup
      have hlines : ∀ current,
          handoffsFrom current (turn ++ events) = handoffs turn ++ handoffs events := by
        intro current
        rw [handoffsFrom_append, hfirst.anywhere, hrest.anywhere]
      have hsplit : handoffs (turn ++ events) = handoffs turn ++ handoffs events := hlines none
      have hexact := hturn.printed_eq hunbroken
      refine ⟨fun current => (hlines current).trans hsplit.symm, ?_, ?_, ?_, ?_, ?_⟩
      · rw [hsplit, Sockets.printedOf_append, List.flatMap_append, hexact]
        exact (List.prefix_append_right_inj _).2 hrest.printed
      · rw [hsplit, List.map_append, Sockets.opensOf_append]
        exact hfirst.opens.append hrest.opens
      · -- a connection of one turn is a stranger to the others
        intro u line hmem
        rw [hsplit, List.mem_append] at hmem
        rw [Sockets.readsOf_append]
        rcases hmem with hmem | hmem
        · have hopen : u ∈ opensOf turn :=
            hfirst.opens.subset (List.mem_map_of_mem (f := Prod.fst) hmem)
          have hnot : u ∉ opensOf events := fun hu => hdisjoint u hopen u hu rfl
          rw [(hrest.strangers u hnot).1, List.append_nil]
          exact hfirst.requests u line hmem
        · have hopen : u ∈ opensOf events :=
            hrest.opens.subset (List.mem_map_of_mem (f := Prod.fst) hmem)
          have hnot : u ∉ opensOf turn := fun hu => hdisjoint u hu u hopen rfl
          rw [(hfirst.strangers u hnot).1, List.nil_append]
          exact hrest.requests u line hmem
      · intro u payload rest receipt hlength hwrites hparse hstate
        rw [Sockets.writesOf_append] at hwrites
        by_cases hopen : u ∈ opensOf turn
        · have hnot : u ∉ opensOf events := fun hu => hdisjoint u hopen u hu rfl
          rw [(hrest.strangers u hnot).2, List.append_nil] at hwrites
          obtain ⟨e₁, e₂, line, rfl, hbefore⟩ :=
            hfirst.forwarded u payload rest receipt hlength hwrites hparse hstate
          exact ⟨e₁, e₂ ++ events, line, by simp, hbefore⟩
        · rw [(hfirst.strangers u hopen).2, List.nil_append] at hwrites
          obtain ⟨e₁, e₂, line, rfl, hbefore⟩ :=
            hrest.forwarded u payload rest receipt hlength hwrites hparse hstate
          refine ⟨turn ++ e₁, e₂, line, by simp, fun current => ?_⟩
          obtain ⟨hmem, hprinted⟩ := hbefore (turn.foldl servedAfter current)
          rw [handoffsFrom_append, hfirst.anywhere, Sockets.printedOf_append, hexact, hprinted]
          exact ⟨List.mem_append_right _ hmem, List.flatMap_append.symm⟩
      · intro u hu
        rw [Sockets.opensOf_append, List.mem_append, not_or] at hu
        obtain ⟨hreads₁, hwrites₁⟩ := hfirst.strangers u hu.1
        obtain ⟨hreads₂, hwrites₂⟩ := hrest.strangers u hu.2
        rw [Sockets.readsOf_append, Sockets.writesOf_append, hreads₁, hreads₂, hwrites₁, hwrites₂]
        exact ⟨rfl, rfl⟩

/-- What a listener has delivered, with the announcement of its endpoint. -/
structure Reported (b64 : Base64.CanonicalCodec) (json : CallbackJson) (endpoint : EndpointId)
    (events : List Event) : Prop where
  printed : printedOf events <+: serializedJson (IntentReadyV1.new endpoint).toVec ++
    (handoffs events).flatMap Prod.snd
  opens : ((handoffs events).map Prod.fst).Sublist (opensOf events)
  requests : ∀ u line, (u, line) ∈ handoffs events →
    ∃ intent, Carries json (readsOf u events) intent ∧ IsRequest b64 endpoint intent ∧
      line = serializedJson intent.toVec
  forwarded : ∀ u payload rest receipt, payload.length ≤ MAX_FRAME_BYTES →
    writesOf u events = frame payload ++ rest → json.receipt payload = some receipt →
    receipt.state = .forwarded →
      ∃ e₁ e₂ line, events = e₁ ++ ⟨.flush, .ok ()⟩ :: e₂ ∧ (u, line) ∈ handoffs e₁ ∧
        printedOf e₁ = serializedJson (IntentReadyV1.new endpoint).toVec ++
          (handoffs e₁).flatMap Prod.snd

theorem Idle.streams {idle : List Event} (h : ∀ e ∈ idle, Idle e) (u : Stream) :
    readsOf u idle = [] ∧ writesOf u idle = [] ∧ opensOf idle = [] :=
  ⟨List.flatMap_eq_nil_iff.2 fun e he => (h e he).reads u,
    List.flatMap_eq_nil_iff.2 fun e he => (h e he).writes u,
    List.filterMap_eq_nil_iff.2 fun e he => (h e he).opens⟩

/-- Printing before the first connection hands nothing over. -/
theorem Handing.handoffs_none {line : Bytes} {r : Option (Except String Unit)}
    (h : Handing line events r) : handoffsFrom none events = [] := by
  cases h <;> rfl

/-- **What a listener has delivered**, as each connection is opened once. -/
theorem Session.reported (h : Session b64 json endpoint events) (hopens : (opensOf events).Nodup) :
    Reported b64 json endpoint events := by
  have hnothing : ∀ {calls : List Event}, handoffs calls = [] → (∀ u, writesOf u calls = []) →
      printedOf calls <+: serializedJson (IntentReadyV1.new endpoint).toVec →
        Reported b64 json endpoint calls := by
    intro calls hnone hwrites hprinted
    refine ⟨?_, ?_, ?_, ?_⟩
    · rw [hnone]
      exact hprinted.trans (List.prefix_append _ _)
    · rw [hnone]
      exact List.nil_sublist _
    · intro u line hmem
      rw [hnone] at hmem
      cases hmem
    · intro u payload rest receipt _ hw
      rw [hwrites] at hw
      exact absurd hw.symm frame_ne_nil
  cases h with
  | binding hsetup =>
      have hquiet : ∀ e ∈ events, Quiet e := fun e he => (hsetup e he).quiet
      refine hnothing (handoffsFrom_quiet hquiet none).1 (fun u => (Idle.streams hsetup u).2.1) ?_
      rw [printedOf_quiet hquiet]
      exact List.nil_prefix
  | @announcing setup prints cleanup r hsetup hhanding hcleanup =>
      have hquiet₁ : ∀ e ∈ setup, Quiet e := fun e he => (hsetup e he).quiet
      have hquiet₂ : ∀ e ∈ cleanup, Quiet e := fun e he => (hcleanup e he).quiet
      refine hnothing ?_ (fun u => ?_) ?_
      · rw [handoffs, handoffsFrom_append, handoffsFrom_append, (handoffsFrom_quiet hquiet₁ _).1,
          (handoffsFrom_quiet hquiet₁ _).2, hhanding.handoffs_none,
          (handoffsFrom_quiet hquiet₂ _).1]
        rfl
      · rw [Sockets.writesOf_append, Sockets.writesOf_append, (Idle.streams hsetup u).2.1,
          (Idle.streams hcleanup u).2.1, (hhanding.streams u).2]
        rfl
      · rw [Sockets.printedOf_append, Sockets.printedOf_append, printedOf_quiet hquiet₁,
          printedOf_quiet hquiet₂, List.nil_append, List.append_nil]
        rcases handoffsFrom_handing (u := ⟨0, .server⟩) hhanding with ⟨-, hnil, -⟩ | ⟨-, hprefix⟩
        · rw [hnil]
          exact List.nil_prefix
        · exact hprefix
  | @serving setup prints turns cleanup hsetup hhanding hturns hcleanup =>
      have hquiet₁ : ∀ e ∈ setup, Quiet e := fun e he => (hsetup e he).quiet
      have hquiet₂ : ∀ e ∈ cleanup, Quiet e := fun e he => (hcleanup e he).quiet
      have hprintsOpens : opensOf prints = [] := opensOf_on (u := ⟨0, .server⟩) hhanding.on
      have hopen : opensOf (setup ++ (prints ++ (turns ++ cleanup))) = opensOf turns := by
        rw [Sockets.opensOf_append, Sockets.opensOf_append, Sockets.opensOf_append, hprintsOpens,
          (Idle.streams hsetup ⟨0, .server⟩).2.2, (Idle.streams hcleanup ⟨0, .server⟩).2.2,
          List.append_nil]
        rfl
      have hdelivered := hturns.delivered (hopen ▸ hopens)
      have hreads : ∀ u, readsOf u (setup ++ (prints ++ (turns ++ cleanup))) = readsOf u turns := by
        intro u
        rw [Sockets.readsOf_append, Sockets.readsOf_append, Sockets.readsOf_append,
          (Idle.streams hsetup u).1, (Idle.streams hcleanup u).1, (hhanding.streams u).1,
          List.append_nil]
        rfl
      have hwrites : ∀ u, writesOf u (setup ++ (prints ++ (turns ++ cleanup))) =
          writesOf u turns := by
        intro u
        rw [Sockets.writesOf_append, Sockets.writesOf_append, Sockets.writesOf_append,
          (Idle.streams hsetup u).2.1, (Idle.streams hcleanup u).2.1, (hhanding.streams u).2,
          List.append_nil]
        rfl
      -- the announcement is printed before the first connection
      have hlines : ∀ calls, handoffs (setup ++ (prints ++ calls)) = handoffsFrom none calls := by
        intro calls
        rw [handoffs, handoffsFrom_append, handoffsFrom_append, (handoffsFrom_quiet hquiet₁ _).1,
          (handoffsFrom_quiet hquiet₁ _).2, hhanding.handoffs_none, hhanding.served]
        rfl
      have hready : ∀ calls, printedOf (setup ++ (prints ++ calls)) =
          serializedJson (IntentReadyV1.new endpoint).toVec ++ printedOf calls := by
        intro calls
        rw [Sockets.printedOf_append, Sockets.printedOf_append, printedOf_quiet hquiet₁]
        cases hhanding with
        | flushed => simp [printedBy, acceptedBytes]
      have hhanded : handoffs (setup ++ (prints ++ (turns ++ cleanup))) = handoffs turns := by
        rw [hlines, handoffsFrom_append, (handoffsFrom_quiet hquiet₂ _).1, List.append_nil,
          hdelivered.anywhere]
      refine ⟨?_, ?_, ?_, ?_⟩
      · rw [hready, hhanded, Sockets.printedOf_append, printedOf_quiet hquiet₂, List.append_nil]
        exact (List.prefix_append_right_inj _).2 hdelivered.printed
      · rw [hhanded, hopen]
        exact hdelivered.opens
      · intro u line hmem
        rw [hhanded] at hmem
        rw [hreads]
        exact hdelivered.requests u line hmem
      · intro u payload rest receipt hlength hw hparse hstate
        rw [hwrites] at hw
        obtain ⟨e₁, e₂, line, rfl, hbefore⟩ :=
          hdelivered.forwarded u payload rest receipt hlength hw hparse hstate
        refine ⟨setup ++ (prints ++ e₁), e₂ ++ cleanup, line, by simp, ?_⟩
        rw [hlines, hready, (hbefore none).2]
        exact ⟨(hbefore none).1, rfl⟩

end Delivered

/-! ### Lines of an output -/

/-- The complete lines of an output, when some bytes of a line have already come. -/
def linesFrom (line : Bytes) : Bytes → List Bytes
  | [] => []
  | b :: bytes =>
      if b = Json.newline then (line ++ [b]) :: linesFrom [] bytes
      else linesFrom (line ++ [b]) bytes

/-- **The complete lines of an output**, each with the line break that ends it. -/
def completeLines (bytes : Bytes) : List Bytes := linesFrom [] bytes

theorem linesFrom_document {document : Bytes} (h : Json.newline ∉ document)
    (line rest : Bytes) :
    linesFrom line (serializedJson document ++ rest) =
      (line ++ serializedJson document) :: linesFrom [] rest := by
  simp only [serializedJson, List.append_assoc, List.singleton_append]
  induction document generalizing line with
  | nil => simp [linesFrom]
  | cons b document ih =>
      rw [List.mem_cons, not_or] at h
      obtain ⟨hb, hrest⟩ := h
      rw [List.cons_append, linesFrom, if_neg (Ne.symm hb), ih hrest]
      simp

/-- The lines that have come stay when more comes. -/
theorem linesFrom_prefix {bs cs : Bytes} (h : bs <+: cs) (line : Bytes) :
    linesFrom line bs <+: linesFrom line cs := by
  induction bs generalizing line cs with
  | nil => exact List.nil_prefix
  | cons b bs ih =>
      obtain ⟨rest, rfl⟩ := h
      simp only [List.cons_append, linesFrom]
      split_ifs
      · exact List.cons_prefix_cons.2 ⟨rfl, ih (List.prefix_append bs rest) []⟩
      · exact ih (List.prefix_append bs rest) _

theorem completeLines_prefix {bs cs : Bytes} (h : bs <+: cs) :
    completeLines bs <+: completeLines cs := linesFrom_prefix h []

/-- Documents that are printed one after the other are the lines. -/
theorem completeLines_documents {lines : List Bytes}
    (h : ∀ line ∈ lines, ∃ document, Json.newline ∉ document ∧ line = serializedJson document) :
    completeLines lines.flatten = lines := by
  induction lines with
  | nil => rfl
  | cons line lines ih =>
      obtain ⟨document, hdocument, rfl⟩ := h line List.mem_cons_self
      rw [List.flatten_cons, completeLines, linesFrom_document hdocument, List.nil_append]
      exact congrArg _ (ih fun other hother => h other (List.mem_cons_of_mem _ hother))

/-! ### A listener and its dispatchers -/

/-- One listener and any number of dispatchers. -/
inductive Party (ι : Type)
  | listener
  | dispatcher (d : ι)
  deriving DecidableEq

/-- What a dispatcher is asked to deliver. -/
structure Request where
  root : PathBuf
  intent : OpenIntentV1
  timeout : ℕ

section Exchange

variable (b64 : Base64.CanonicalCodec) (json : CallbackJson) (xdgRuntimeDir : Option PathBuf)
  (endpoint : EndpointId) (once : Bool) (fuel : ℕ) {ι : Type} [DecidableEq ι]
  (requests : ι → Request)

/-- The program of a dispatcher. -/
def Request.program (request : Request) : Net IntentError IntentReceiptV1 :=
  dispatch json request.root request.intent request.timeout

/-- **A run of one listener and any number of dispatchers**, in which each has been obeying its
program; everybody else does what they like. -/
structure Exchange (labels : List (Party ι × Event)) (w : World (Party ι)) : Prop where
  run : (Sockets.system (Party ι)).Run (World.init (Party ι)) labels w
  listener : ∃ left, (listenForIntents b64 json xdgRuntimeDir endpoint.asStr once fuel).Reaches
    (Histories.project .listener labels) left
  dispatchers : ∀ d, ∃ left, ((requests d).program json).Reaches
    (Histories.project (.dispatcher d) labels) left

/-- The lines that the listener has printed, each with its connection. -/
def printedLines (labels : List (Party ι × Event)) : List (Stream × Bytes) :=
  handoffs (Histories.project .listener labels)

/-- The lines that the consumer has seen. -/
def seenLines (w : World (Party ι)) : List Bytes := completeLines (w.shown .listener)

/-- What the client of a connection has sent begins with the frame of an intent. -/
def Sent (w : World (Party ι)) (c : ℕ) (intent : OpenIntentV1) : Prop :=
  ∃ payload rest, payload.length ≤ MAX_FRAME_BYTES ∧ json.intent payload = some intent ∧
    w.sent (Sockets.clientEnd c) = frame payload ++ rest

/-- What was sent to the client of a connection begins with the frame of a receipt. -/
def Received (w : World (Party ι)) (c : ℕ) (receipt : IntentReceiptV1) : Prop :=
  ∃ payload rest, payload.length ≤ MAX_FRAME_BYTES ∧ json.receipt payload = some receipt ∧
    w.sent (Sockets.serverEnd c) = frame payload ++ rest

/-- The consumer has seen a line, and it was printed for a connection. -/
def SeenFor (labels : List (Party ι × Event)) (w : World (Party ι)) (c : ℕ) (line : Bytes) :
    Prop :=
  ∃ k : ℕ, (printedLines labels)[k]? = some (Sockets.serverEnd c, line) ∧
    (seenLines w)[k + 1]? = some line

variable {b64 json xdgRuntimeDir endpoint once fuel requests}
  {labels : List (Party ι × Event)} {w : World (Party ι)}

/-- A program that never makes some calls. -/
structure Avoids (calls : SocketCall → Prop) {ε α : Type} (x : Net ε α) : Prop where
  always : ∀ past, Prog.Always (fun _ e => ¬ calls e.1) past x

section Avoids

variable {calls : SocketCall → Prop} {ε α β δ : Type}

theorem Avoids.bind {x : Net ε α} {f : α → Net ε β} (hx : Avoids calls x)
    (hf : ∀ a, Avoids calls (f a)) : Avoids calls (x >>= f) :=
  ⟨fun past => (hx.always past).bind fun _ a _ => (hf a).always _⟩

theorem Avoids.finally_ {x : Net ε α} {cleanup : Net ε Unit} (hx : Avoids calls x)
    (hcleanup : Avoids calls cleanup) : Avoids calls (x.finally_ cleanup) :=
  ⟨Prog.Always.finally_ hx.always hcleanup.always⟩

theorem Avoids.caught {x : Net ε α} (hx : Avoids calls x) :
    Avoids calls (x.caught : Net δ (Except ε α)) :=
  ⟨fun past => (hx.always past).caught⟩

theorem avoids_call (op : SocketCall) (hop : ¬ calls op) :
    Avoids calls (Prog.call op : Net ε op.Answer) :=
  ⟨fun _ _ => ⟨hop, trivial⟩⟩

theorem avoids_ofExcept (r : Except ε α) : Avoids calls (Prog.ofExcept r : Net ε α) :=
  ⟨fun _ => Prog.Always.ofExcept⟩

theorem Avoids.mapError {x : Net ε α} (f : ε → δ) (hx : Avoids calls x) :
    Avoids calls (x.mapError f) :=
  .bind hx.caught fun _ => avoids_ofExcept _

theorem avoids_of_forall {x : Net ε α}
    (h : ∀ events left, x.Reaches events left → ∀ e ∈ events, ¬ calls e.1) : Avoids calls x :=
  ⟨fun _ => Prog.Always.of_forall_mem h⟩

theorem Avoids.forall_mem {x left : Net ε α} {events : List Event} (hx : Avoids calls x)
    (h : x.Reaches events left) : ∀ e ∈ events, ¬ calls e.1 :=
  (hx.always []).forall_mem h

end Avoids

/-- The calls of a listener only: it binds its socket, accepts, and removes the socket. -/
def ListenerCall : SocketCall → Prop
  | .bind _ => True
  | .accept => True
  | .removeFile _ => True
  | _ => False

/-- A dispatcher makes none of the calls of a listener, and prints nothing. -/
theorem avoids_dispatch_of {calls : SocketCall → Prop}
    (hcalls : ∀ op, calls op → ListenerCall op ∨ ∃ bytes, op = .print bytes) (root : PathBuf)
    (intent : OpenIntentV1) (timeout : ℕ) : Avoids calls (dispatch json root intent timeout) := by
  have hnot : ∀ op, ¬ ListenerCall op → (∀ bytes, op ≠ .print bytes) → ¬ calls op := by
    intro op hlistener hprint hop
    rcases hcalls op hop with h | ⟨bytes, h⟩
    · exact hlistener h
    · exact hprint bytes h
  refine .bind (avoids_ofExcept _) fun path => ?_
  refine .bind (avoids_call (.connect path) (hnot _ id (by simp))) fun _ =>
    .bind (avoids_ofExcept _) fun stream => ?_
  refine .finally_ ?_ (avoids_call (.close stream) (hnot _ id (by simp)))
  refine .bind (avoids_call (.setReadTimeout stream timeout) (hnot _ id (by simp))) fun _ =>
    .bind (avoids_ofExcept _) fun _ => ?_
  refine .bind (avoids_call (.setWriteTimeout stream timeout) (hnot _ id (by simp))) fun _ =>
    .bind (avoids_ofExcept _) fun _ => ?_
  refine .bind (avoids_of_forall fun events left hrun e he => ?_) fun _ =>
    .bind (avoids_of_forall fun events left hrun e he => ?_) fun receipt =>
      .bind (avoids_ofExcept _) fun _ => .bind ?_ fun _ => ⟨fun _ => trivial⟩
  · obtain ⟨_, _, rfl⟩ := (writeFrame_sent hrun).1 e he
    exact hnot _ id (by simp)
  · obtain ⟨_, _, rfl⟩ := readFrame_only hrun e he
    exact hnot _ id (by simp)
  · exact ⟨fun _ => Prog.Always.ensure⟩

/-- A dispatcher makes none of the calls of a listener. -/
theorem avoids_dispatch (root : PathBuf) (intent : OpenIntentV1) (timeout : ℕ) :
    Avoids ListenerCall (dispatch json root intent timeout) :=
  avoids_dispatch_of (fun _ => Or.inl) root intent timeout

/-- A dispatcher prints nothing. -/
theorem printedOf_dispatch {root : PathBuf} {intent : OpenIntentV1} {timeout : ℕ}
    {events : List Event} {left : Net IntentError IntentReceiptV1}
    (h : (dispatch json root intent timeout).Reaches events left) : printedOf events = [] := by
  have havoids := (@avoids_dispatch_of json (fun op => ∃ bytes, op = .print bytes)
    (fun _ => Or.inr) root intent timeout).forall_mem h
  refine List.flatMap_eq_nil_iff.2 fun e he => ?_
  obtain ⟨op, answer⟩ := e
  cases op with
  | print bytes => exact absurd ⟨bytes, rfl⟩ (havoids _ he)
  | _ => rfl

variable (b64 json xdgRuntimeDir endpoint once fuel) in
/-- **A run of a listener** and of processes that make none of its calls. -/
structure Listening (labels : List (Party ι × Event)) (w : World (Party ι)) : Prop where
  run : (Sockets.system (Party ι)).Run (World.init (Party ι)) labels w
  listener : ∃ left, (listenForIntents b64 json xdgRuntimeDir endpoint.asStr once fuel).Reaches
    (Histories.project .listener labels) left
  others : ∀ d, ∀ e ∈ Histories.project (.dispatcher d) labels, ¬ ListenerCall e.1

theorem Exchange.listening (h : Exchange b64 json xdgRuntimeDir endpoint once fuel requests
    labels w) : Listening b64 json xdgRuntimeDir endpoint once fuel labels w where
  run := h.run
  listener := h.listener
  others d := by
    obtain ⟨left, hleft⟩ := h.dispatchers d
    exact (avoids_dispatch _ _ _).forall_mem hleft

/-- Only the listener holds server ends. -/
theorem Listening.holder_server (h : Listening b64 json xdgRuntimeDir endpoint once fuel labels w)
    {c : ℕ} (hsent : w.sent (Sockets.serverEnd c) ≠ []) :
    w.holder (Sockets.serverEnd c) = some .listener := by
  have hhandles := Sockets.Handles.of_run h.run
  have hstreams := Sockets.Streams.of_run h.run
  cases hholder : w.holder (Sockets.serverEnd c) with
  | none => exact absurd (hstreams.unheld _ hholder (Or.inl rfl)) hsent
  | some p =>
      cases p with
      | listener => rfl
      | dispatcher d =>
          obtain ⟨e, he, hopen⟩ := List.mem_filterMap.1 (hhandles.held _ _ hholder)
          have hnot := h.others d e he
          obtain ⟨op, answer⟩ := e
          cases op with
          | accept => exact absurd trivial hnot
          | connect path =>
              cases answer with
              | error message => cases hopen
              | ok u =>
                  obtain rfl := Option.some.inj hopen
                  cases hhandles.clients _ path _ he
          | _ => cases hopen

/-- What the listener has delivered in a run. -/
theorem Listening.reported (h : Listening b64 json xdgRuntimeDir endpoint once fuel labels w) :
    Reported b64 json endpoint (Histories.project .listener labels) := by
  obtain ⟨left, hleft⟩ := h.listener
  exact (listenForIntents_reaches hleft).reported ((Sockets.Handles.of_run h.run).opens .listener)

theorem Exchange.reported (h : Exchange b64 json xdgRuntimeDir endpoint once fuel requests
    labels w) : Reported b64 json endpoint (Histories.project .listener labels) :=
  h.listening.reported

/-- The line by which the listener announces its endpoint. -/
def readyLine (endpoint : EndpointId) : Bytes :=
  serializedJson (IntentReadyV1.new endpoint).toVec

/-- Everything that is printed is a document on its own line. -/
theorem Reported.documents {events : List Event} (h : Reported b64 json endpoint events)
    {lines : List (Stream × Bytes)} (hlines : ∀ l ∈ lines, l ∈ handoffs events) :
    completeLines (readyLine endpoint ++ lines.flatMap Prod.snd) =
      readyLine endpoint :: lines.map Prod.snd := by
  have hflatten : readyLine endpoint ++ lines.flatMap Prod.snd =
      (readyLine endpoint :: lines.map Prod.snd).flatten := by
    rw [List.flatten_cons, List.flatMap_def]
  rw [hflatten]
  refine completeLines_documents ?_
  intro line hline
  rcases List.mem_cons.1 hline with rfl | hline
  · exact ⟨_, IntentReadyV1.newline_notMem_toVec _, rfl⟩
  · obtain ⟨⟨u, line⟩, hmem, rfl⟩ := List.mem_map.1 hline
    obtain ⟨intent, -, -, rfl⟩ := h.requests u line (hlines _ hmem)
    exact ⟨_, intent.newline_notMem_toVec, rfl⟩

/-- The consumer sees the announcement and then the lines, in order. -/
theorem Listening.seenLines_prefix
    (h : Listening b64 json xdgRuntimeDir endpoint once fuel labels w) :
    seenLines w <+: readyLine endpoint :: (printedLines labels).map Prod.snd := by
  have houtput := Sockets.Output.of_run h.run
  have hbytes : w.shown .listener <+:
      readyLine endpoint ++ (printedLines labels).flatMap Prod.snd := by
    refine (houtput.shown .listener).trans ?_
    rw [← houtput.printed .listener]
    exact h.reported.printed
  have hlines := completeLines_prefix hbytes
  have hdocuments : completeLines
      (readyLine endpoint ++ (printedLines labels).flatMap Prod.snd) =
        readyLine endpoint :: (printedLines labels).map Prod.snd :=
    h.reported.documents fun l hl => hl
  rwa [hdocuments] at hlines

theorem Exchange.seenLines_prefix (h : Exchange b64 json xdgRuntimeDir endpoint once fuel requests
    labels w) : seenLines w <+: readyLine endpoint :: (printedLines labels).map Prod.snd :=
  h.listening.seenLines_prefix

/-- The client of a connection has sent what was read from it. -/
theorem Listening.sent_of_mem (h : Listening b64 json xdgRuntimeDir endpoint once fuel labels w)
    {c : ℕ} {line : Bytes}
    (hmem : (Sockets.serverEnd c, line) ∈ printedLines labels) :
    ∃ intent, Sent json w c intent ∧ IsRequest b64 endpoint intent ∧
      line = serializedJson intent.toVec := by
  obtain ⟨intent, ⟨payload, hlength, hparse, hreads⟩, hrequest, hline⟩ :=
    h.reported.requests _ line hmem
  obtain ⟨rest, hrest⟩ :=
    (Sockets.Streams.of_run h.run).reads_isPrefix .listener (Sockets.serverEnd c)
  rw [hreads] at hrest
  exact ⟨intent, ⟨payload, rest, hlength, hparse, hrest.symm⟩, hrequest, hline⟩

theorem Exchange.sent_of_mem (h : Exchange b64 json xdgRuntimeDir endpoint once fuel requests
    labels w) {c : ℕ} {line : Bytes}
    (hmem : (Sockets.serverEnd c, line) ∈ printedLines labels) :
    ∃ intent, Sent json w c intent ∧ IsRequest b64 endpoint intent ∧
      line = serializedJson intent.toVec :=
  h.listening.sent_of_mem hmem

/-- **Whose client receives that its intent is forwarded has a line that the consumer has seen.** -/
theorem Listening.seen_of_received
    (h : Listening b64 json xdgRuntimeDir endpoint once fuel labels w) {c : ℕ}
    {receipt : IntentReceiptV1} (hreceived : Received json w c receipt)
    (hstate : receipt.state = .forwarded) :
    ∃ intent, Sent json w c intent ∧ IsRequest b64 endpoint intent ∧
      SeenFor labels w c (serializedJson intent.toVec) := by
  obtain ⟨payload, rest, hlength, hparse, hsent⟩ := hreceived
  have hholder := h.holder_server (c := c) (by rw [hsent]; exact frame_ne_nil)
  have hwrites := (Sockets.Streams.of_run h.run).writes _ _ hholder
  obtain ⟨e₁, e₂, line, hsplit, hmem, hprinted⟩ :=
    h.reported.forwarded _ payload rest receipt hlength (hwrites.trans hsent) hparse hstate
  -- the lines before the flush come first, and have been seen
  have hbefore : printedLines labels =
      handoffs e₁ ++ handoffsFrom (e₁.foldl servedAfter none) (⟨.flush, .ok ()⟩ :: e₂) := by
    rw [printedLines, hsplit, handoffs, handoffsFrom_append]
    rfl
  obtain ⟨intent, hintent, hrequest, rfl⟩ := h.sent_of_mem
    (hbefore ▸ List.mem_append_left _ hmem)
  obtain ⟨k, hk⟩ := List.mem_iff_getElem?.1 hmem
  have hlt : k < (handoffs e₁).length := (List.getElem?_eq_some_iff.1 hk).1
  refine ⟨intent, hintent, hrequest, k, ?_, ?_⟩
  · rw [hbefore, List.getElem?_append_left hlt]
    exact hk
  · have hflushed := (Sockets.Output.of_run h.run).flushed .listener e₁ e₂ hsplit
    have hbeforeMem : ∀ l ∈ handoffs e₁, l ∈ printedLines labels := by
      intro l hl
      rw [hbefore]
      exact List.mem_append_left _ hl
    obtain ⟨more, hmore⟩ := completeLines_prefix hflushed
    rw [hprinted, ← readyLine, h.reported.documents hbeforeMem] at hmore
    rw [seenLines, ← hmore, List.getElem?_append_left (by simpa using hlt),
      List.getElem?_cons_succ, List.getElem?_map, hk]
    rfl

theorem Exchange.seen_of_received (h : Exchange b64 json xdgRuntimeDir endpoint once fuel requests
    labels w) {c : ℕ} {receipt : IntentReceiptV1} (hreceived : Received json w c receipt)
    (hstate : receipt.state = .forwarded) :
    ∃ intent, Sent json w c intent ∧ IsRequest b64 endpoint intent ∧
      SeenFor labels w c (serializedJson intent.toVec) :=
  h.listening.seen_of_received hreceived hstate

/-- What a dispatcher has sent is one frame with its intent, whatever it prints afterwards. -/
theorem Listening.sent_dispatcher (h : Listening b64 json xdgRuntimeDir endpoint once fuel labels w)
    {d : ι} {request : Request} {receipt : IntentReceiptV1} {calls after : List Event}
    (hd : (request.program json).Returns calls receipt)
    (hproject : Histories.project (.dispatcher d) labels = calls ++ after)
    (hreadsAfter : ∀ u, readsOf u after = []) (hwritesAfter : ∀ u, writesOf u after = []) :
    ∃ path c, ⟨.connect path, .ok (Sockets.clientEnd c)⟩ ∈
        Histories.project (.dispatcher d) labels ∧
      (∀ intent, Sent json w c intent → intent = request.intent) ∧
      Received json w c receipt := by
  have hhandles := Sockets.Handles.of_run h.run
  have hstreams := Sockets.Streams.of_run h.run
  obtain ⟨path, ⟨c, side⟩, hcall, hlength, hwrites, ⟨payload, hpayload, hparse, hreads⟩, -⟩ :=
    dispatch_returns hd
  have hconnect : ⟨.connect path, .ok ⟨c, side⟩⟩ ∈ Histories.project (.dispatcher d) labels := by
    rw [hproject]
    exact List.mem_append_left _ hcall
  rw [← List.append_nil (writesOf _ calls), ← hwritesAfter ⟨c, side⟩, ← Sockets.writesOf_append,
    ← hproject] at hwrites
  rw [← List.append_nil (readsOf _ calls), ← hreadsAfter ⟨c, side⟩, ← Sockets.readsOf_append,
    ← hproject] at hreads
  obtain rfl : side = .client := hhandles.clients _ path _ hconnect
  have hopen : Sockets.clientEnd c ∈ opensOf (Histories.project (.dispatcher d) labels) :=
    List.mem_filterMap.2 ⟨_, hconnect, rfl⟩
  have hholder := hhandles.opened _ _ hopen
  have hmax : MAX_FRAME_BYTES < 2 ^ 32 := by decide
  refine ⟨path, c, hconnect, ?_, ?_⟩
  · rintro intent ⟨sent, rest, hsentLength, hsentParse, hsent⟩
    have hall : w.sent (Sockets.clientEnd c) = frame request.intent.toVec :=
      (hstreams.writes _ _ hholder).symm.trans hwrites
    rw [hsent, ← List.append_nil (frame request.intent.toVec)] at hall
    obtain ⟨rfl, -⟩ := frame_append_inj (by omega) (by omega) hall
    rw [json.intent_toVec] at hsentParse
    exact (Option.some.inj hsentParse).symm
  · obtain ⟨rest, hrest⟩ := hstreams.reads_isPrefix (.dispatcher d) (Sockets.clientEnd c)
    have hframe : readsOf (Sockets.clientEnd c) (Histories.project (.dispatcher d) labels) =
        frame payload := hreads
    rw [hframe] at hrest
    exact ⟨payload, rest, hpayload, hparse, hrest.symm⟩

theorem Exchange.sent_dispatcher (h : Exchange b64 json xdgRuntimeDir endpoint once fuel requests
    labels w) {d : ι} {receipt : IntentReceiptV1}
    (hd : ((requests d).program json).Returns (Histories.project (.dispatcher d) labels)
      receipt) :
    ∃ path c, ⟨.connect path, .ok (Sockets.clientEnd c)⟩ ∈
        Histories.project (.dispatcher d) labels ∧
      (∀ intent, Sent json w c intent → intent = (requests d).intent) ∧
      Received json w c receipt :=
  h.listening.sent_dispatcher hd (List.append_nil _).symm (fun _ => rfl) fun _ => rfl

end Exchange

/-! ### A delivery -/

section Delivery

/-- The calls of one process among those of all. -/
theorem project_map {P : Type} [DecidableEq P] (p q : P) (events : List Event) :
    Histories.project p (events.map (Prod.mk q)) = if q = p then events else [] := by
  induction events with
  | nil => split <;> rfl
  | cons e events ih =>
      rw [List.map_cons, Histories.project, ih]
      split <;> rfl

variable (root path : PathBuf) (endpoint : EndpointId) (intent : OpenIntentV1) (timeout : ℕ)

/-- A listener binds its socket and announces the endpoint. -/
def setupCalls : List Event :=
  [⟨.createDirAll root, .ok ()⟩, ⟨.setPermissions root 0o700, .ok ()⟩,
    ⟨.symlinkMetadata root, .ok ⟨true, 0o700⟩⟩, ⟨.exists_ path, false⟩, ⟨.bind path, .ok ()⟩,
    ⟨.setPermissions path 0o600, .ok ()⟩, ⟨.print (readyLine endpoint), .ok ()⟩,
    ⟨.flush, .ok ()⟩]

/-- A dispatcher connects and sends its intent. -/
def sendCalls : List Event :=
  [⟨.connect path, .ok (Sockets.clientEnd 0)⟩,
    ⟨.setReadTimeout (Sockets.clientEnd 0) timeout, .ok ()⟩,
    ⟨.setWriteTimeout (Sockets.clientEnd 0) timeout, .ok ()⟩,
    ⟨.write (Sockets.clientEnd 0) (toBeBytes intent.toVec.length), .ok (Fin.last 4)⟩,
    ⟨.write (Sockets.clientEnd 0) intent.toVec, .ok (Fin.last intent.toVec.length)⟩]

/-- The listener prints the line of the intent, and answers. -/
def serveCalls : List Event :=
  [⟨.accept, .ok (Sockets.serverEnd 0)⟩,
    ⟨.read (Sockets.serverEnd 0) 4, .ok ⟨toBeBytes intent.toVec.length, le_refl 4⟩⟩,
    ⟨.read (Sockets.serverEnd 0) intent.toVec.length, .ok ⟨intent.toVec, le_refl _⟩⟩,
    ⟨.print (serializedJson intent.toVec), .ok ()⟩, ⟨.flush, .ok ()⟩,
    ⟨.write (Sockets.serverEnd 0) (toBeBytes (IntentReceiptV1.forwarded endpoint).toVec.length),
      .ok (Fin.last 4)⟩,
    ⟨.write (Sockets.serverEnd 0) (IntentReceiptV1.forwarded endpoint).toVec,
      .ok (Fin.last (IntentReceiptV1.forwarded endpoint).toVec.length)⟩,
    ⟨.close (Sockets.serverEnd 0), ()⟩, ⟨.removeFile path, .ok ()⟩]

/-- The dispatcher reads the receipt. -/
def receiveCalls : List Event :=
  [⟨.read (Sockets.clientEnd 0) 4,
      .ok ⟨toBeBytes (IntentReceiptV1.forwarded endpoint).toVec.length, le_refl 4⟩⟩,
    ⟨.read (Sockets.clientEnd 0) (IntentReceiptV1.forwarded endpoint).toVec.length,
      .ok ⟨(IntentReceiptV1.forwarded endpoint).toVec, le_refl _⟩⟩,
    ⟨.close (Sockets.clientEnd 0), ()⟩]

/-- One intent is delivered, and the listener ends. -/
def deliveryLabels : List (Party Unit × Event) :=
  (setupCalls root path endpoint).map (Prod.mk .listener) ++
    ((sendCalls path intent timeout).map (Prod.mk (.dispatcher ())) ++
      ((serveCalls path endpoint intent).map (Prod.mk .listener) ++
        (receiveCalls endpoint).map (Prod.mk (.dispatcher ()))))

/-- The system can make these calls. -/
theorem delivery_run : ∃ w, (Sockets.system (Party Unit)).Run (World.init (Party Unit))
    (deliveryLabels root path endpoint intent timeout) w := by
  have hsome : ∀ {n : ℕ}, (Fin.last 4 : Fin ((toBeBytes n).length + 1)) = 0 → toBeBytes n = [] :=
    fun h => absurd (congrArg Fin.val h) (Nat.succ_ne_zero 3)
  refine ⟨_, .step (Or.inl (.createDirAll _ _ _)) <| .step (Or.inl (.setPermissions _ _ _ _)) <|
    .step (Or.inl (.symlinkMetadata _ _ _ _)) <| .step (Or.inl (.exists_ _ ?_)) <|
    .step (Or.inl (.bind _ _ rfl)) <| .step (Or.inl (.setPermissions _ _ _ _)) <|
    .step (Or.inl (.print _ _ _)) <| .step (Or.inl (.flush _ _)) <|
    .step (Or.inl (.connect _ _ rfl ?_)) <| .step (Or.inl (.setReadTimeout _ _ _ _)) <|
    .step (Or.inl (.setWriteTimeout _ _ _ _)) <| .step (Or.inl (.write ?_ ?_ hsome)) <|
    .step (Or.inl (.write ?_ ?_ ?_)) <| .step (Or.inl (.accept _ rfl)) <|
    .step (Or.inl (.read ?_ ?_ ?_)) <| .step (Or.inl (.read ?_ ?_ ?_)) <|
    .step (Or.inl (.print _ _ _)) <| .step (Or.inl (.flush _ _)) <|
    .step (Or.inl (.write ?_ ?_ hsome)) <| .step (Or.inl (.write ?_ ?_ ?_)) <|
    .step (Or.inl (.close ?_)) <| .step (Or.inl (.removeFile _ _ _)) <|
    .step (Or.inl (.read ?_ ?_ ?_)) <| .step (Or.inl (.read ?_ ?_ ?_)) <|
      .step (Or.inl (.close ?_)) <| .nil _⟩
  all_goals
    have hheader : ∀ n, (toBeBytes n).length = 4 ∧ (toBeBytes n).take 4 = toBeBytes n ∧
      toBeBytes n ≠ [] := fun n => ⟨rfl, rfl, List.cons_ne_nil _ _⟩
    have hreceipt : (IntentReceiptV1.forwarded endpoint).toVec ≠ [] := List.cons_ne_nil _ _
    simp [World.init, Sockets.clientEnd, Sockets.serverEnd, Function.update, Stream.peer,
      Sockets.Side.other, hheader, hreceipt]

variable {root path endpoint intent timeout} {b64 : Base64.CanonicalCodec} {json : CallbackJson}
  {xdgRuntimeDir : Option PathBuf} {once : Bool} {fuel : ℕ}

theorem length_forwarded_le (endpoint : EndpointId) :
    (IntentReceiptV1.forwarded endpoint).toVec.length ≤ MAX_FRAME_BYTES := by
  have hschema : Json.escapedLength INTENT_RECEIPT_SCHEMA_V1 = 38 := by rfl
  have hstate : Json.escapedLength IntentDeliveryState.forwarded.name = 9 := by rfl
  have hdetail : Json.escapedLength "intent was forwarded to the bound local consumer" = 48 := by
    rfl
  have hlength := (IntentReceiptV1.forwarded endpoint).length_toVec
  simp only [IntentReceiptV1.forwarded, hschema, hstate, hdetail] at hlength
  rw [IntentReceiptV1.forwarded, hlength]
  decide

/-- The dispatcher makes its calls. -/
theorem delivery_dispatcher (hpath : socketPath root endpoint = .ok path)
    (hendpoint : intent.endpoint = endpoint) (hlength : intent.toVec.length ≤ MAX_FRAME_BYTES) :
    (dispatch json root intent timeout).Returns
      (sendCalls path intent timeout ++ receiveCalls endpoint)
      (IntentReceiptV1.forwarded endpoint) := by
  have hvalid : ∃ u, (IntentReceiptV1.forwarded endpoint).validate = .ok u := by
    have hdetail : Text.asBytes "intent was forwarded to the bound local consumer" ≠ [] ∧
        (Text.asBytes "intent was forwarded to the bound local consumer").length ≤
          MAX_FRAME_BYTES := by decide
    exact ⟨(), IntentReceiptV1.validate_eq_ok_iff.2 ⟨rfl, hdetail⟩⟩
  have hintent : intent.toVec ≠ [] := List.cons_ne_nil _ _
  have hreceipt : (IntentReceiptV1.forwarded endpoint).toVec ≠ [] := List.cons_ne_nil _ _
  have hwrite := writeFrame_returns_once (u := Sockets.clientEnd 0) hintent hlength
  have hread := readFrame_returns_once (u := Sockets.clientEnd 0) hreceipt
    (length_forwarded_le endpoint) (json.receipt_toVec _)
  refine Prog.bind_returns_iff.2 ⟨[], path, _, Prog.ofExcept_returns_iff.2
    ⟨rfl, by rw [hendpoint, hpath]⟩, ?_, rfl⟩
  refine Prog.bind_returns_iff.2 ⟨[_], .ok (Sockets.clientEnd 0), _, Prog.call_returns_iff.2 rfl,
    ?_, rfl⟩
  refine Prog.bind_returns_iff.2 ⟨[], Sockets.clientEnd 0, _, io_returns_iff.2 ⟨rfl, rfl⟩, ?_, rfl⟩
  refine Prog.ends_ok_iff.1 (Prog.finally_ends_iff.2
    ⟨(sendCalls path intent timeout).tail ++ (receiveCalls endpoint).take 2,
      .ok (IntentReceiptV1.forwarded endpoint), [⟨.close (Sockets.clientEnd 0), ()⟩], .ok (), ?_,
      Prog.Reaches.perform (Prog.Reaches.here _), rfl, rfl⟩)
  refine Prog.bind_returns_iff.2 ⟨[_], .ok (), _, Prog.call_returns_iff.2 rfl, ?_, rfl⟩
  refine Prog.bind_returns_iff.2 ⟨[], (), _, io_returns_iff.2 ⟨rfl, rfl⟩, ?_, rfl⟩
  refine Prog.bind_returns_iff.2 ⟨[_], .ok (), _, Prog.call_returns_iff.2 rfl, ?_, rfl⟩
  refine Prog.bind_returns_iff.2 ⟨[], (), _, io_returns_iff.2 ⟨rfl, rfl⟩, ?_, rfl⟩
  refine Prog.bind_returns_iff.2 ⟨_, (), _, hwrite, ?_, rfl⟩
  refine Prog.bind_returns_iff.2 ⟨_, _, [], hread, ?_, rfl⟩
  obtain ⟨u, hu⟩ := hvalid
  refine Prog.bind_returns_iff.2 ⟨[], u, [], Prog.ofExcept_returns_iff.2 ⟨rfl, hu⟩, ?_, rfl⟩
  refine Prog.bind_returns_iff.2 ⟨[], (), [], Prog.ensure_returns_iff.2 ⟨rfl, ?_⟩, ?_, rfl⟩
  · rw [hendpoint]
    exact decide_eq_true rfl
  · exact Prog.Reaches.here _

/-- A line can be printed. -/
theorem writeOutput_returns_once (line : Bytes) :
    (writeOutput line).Returns [⟨.print line, .ok ()⟩, ⟨.flush, .ok ()⟩] () := by
  refine Prog.bind_returns_iff.2 ⟨[_], .ok (), [_], Prog.call_returns_iff.2 rfl, ?_, rfl⟩
  refine Prog.bind_returns_iff.2 ⟨[], (), [_], Prog.ofExcept_returns_iff.2 ⟨rfl, rfl⟩, ?_, rfl⟩
  refine Prog.bind_returns_iff.2 ⟨[_], .ok (), [], Prog.call_returns_iff.2 rfl, ?_, rfl⟩
  exact Prog.ofExcept_returns_iff.2 ⟨rfl, rfl⟩

/-- The socket is bound. -/
theorem bind_returns_setup (hpath : socketPath root endpoint = .ok path) :
    (bind root endpoint).Returns ((setupCalls root path endpoint).take 6) ⟨path, endpoint⟩ := by
  have hprepare : (prepareRuntimeRoot root).Returns ((setupCalls root path endpoint).take 3) () :=
    Prog.Reaches.perform (Prog.Reaches.perform (Prog.Reaches.perform (Prog.Reaches.here _)))
  refine Prog.bind_returns_iff.2 ⟨_, (), _, hprepare, ?_, rfl⟩
  refine Prog.bind_returns_iff.2 ⟨[], path, _, Prog.ofExcept_returns_iff.2 ⟨rfl, hpath⟩, ?_, rfl⟩
  exact Prog.Reaches.perform (Prog.Reaches.perform (Prog.Reaches.perform (Prog.Reaches.here _)))

/-- The intent is read and accepted. -/
theorem accept_returns_serve (path : PathBuf) (hrequest : IsRequest b64 endpoint intent)
    (hlength : intent.toVec.length ≤ MAX_FRAME_BYTES) :
    (accept b64 json ⟨path, endpoint⟩).Returns ((serveCalls path endpoint intent).take 3)
      ⟨intent, Sockets.serverEnd 0⟩ := by
  have hintent : intent.toVec ≠ [] := List.cons_ne_nil _ _
  have hread := readFrame_returns_once (u := Sockets.serverEnd 0) hintent hlength
    (json.intent_toVec intent)
  obtain ⟨hendpoint, target, htarget⟩ := hrequest
  refine Prog.bind_returns_iff.2 ⟨[_], .ok (Sockets.serverEnd 0), _, Prog.call_returns_iff.2 rfl,
    ?_, rfl⟩
  refine Prog.bind_returns_iff.2 ⟨[], _, _, io_returns_iff.2 ⟨rfl, rfl⟩, ?_, rfl⟩
  refine Prog.ends_ok_iff.1 (Prog.onFailure_ends_iff.2 (Or.inl ⟨_, ?_, rfl⟩))
  refine Prog.bind_returns_iff.2 ⟨_, intent, [], hread, ?_, rfl⟩
  rw [if_neg (not_not.2 hendpoint)]
  exact Prog.bind_returns_iff.2 ⟨[], target, [], Prog.ofExcept_returns_iff.2 ⟨rfl, htarget⟩,
    Prog.Reaches.here _, rfl⟩

/-- A listener binds, announces and serves. -/
theorem listen_reaches {calls : List Event} {left : Net ListenFailure Unit}
    (hroot : runtimeRoot xdgRuntimeDir = .ok root) (hpath : socketPath root endpoint = .ok path)
    (hserve : (serve b64 json ⟨path, endpoint⟩ once fuel).Reaches calls left) :
    (listenForIntents b64 json xdgRuntimeDir endpoint.asStr once fuel).Reaches
      (setupCalls root path endpoint ++ calls) (left.finally_ (removeSocket ⟨path, endpoint⟩)) := by
  have hendpoint : (EndpointId.parse endpoint.asStr).mapError (fun e => .app (.intent e)) =
      (.ok endpoint : Except ListenFailure EndpointId) := by
    rw [EndpointId.parse_eq_ok_iff.2 rfl]
    rfl
  have hroot' : (runtimeRoot xdgRuntimeDir).mapError (fun e => .app (.intent e)) =
      (.ok root : Except ListenFailure PathBuf) := by
    rw [hroot]
    rfl
  have hbind : ((bind root endpoint).mapError fun e => ListenFailure.app (.intent e)).Returns
      ((setupCalls root path endpoint).take 6) ⟨path, endpoint⟩ :=
    Prog.mapError_ends_iff.2 ⟨.ok _, bind_returns_setup hpath, rfl⟩
  have hannounce : ((writeOutput (readyLine endpoint)).mapError fun message =>
      ListenFailure.app (.io message)).Returns ((setupCalls root path endpoint).drop 6) () :=
    Prog.mapError_ends_iff.2 ⟨.ok _, writeOutput_returns_once _, rfl⟩
  refine Prog.bind_reaches_iff.2 (Or.inr ⟨[], endpoint, _,
    Prog.ofExcept_returns_iff.2 ⟨rfl, hendpoint⟩, ?_, rfl⟩)
  refine Prog.bind_reaches_iff.2 (Or.inr ⟨[], root, _,
    Prog.ofExcept_returns_iff.2 ⟨rfl, hroot'⟩, ?_, rfl⟩)
  refine Prog.bind_reaches_iff.2 (Or.inr ⟨_, ⟨path, endpoint⟩,
    (setupCalls root path endpoint).drop 6 ++ calls, hbind, ?_, rfl⟩)
  exact (Prog.bind_reaches_iff.2 (Or.inr ⟨_, (), calls, hannounce, hserve, rfl⟩)).finally_ _

/-- **A listener ends as its loop does**, and removes its socket. -/
theorem listen_ends {calls : List Event} {r : Except ListenFailure Unit}
    (hroot : runtimeRoot xdgRuntimeDir = .ok root) (hpath : socketPath root endpoint = .ok path)
    (hserve : (serve b64 json ⟨path, endpoint⟩ once fuel).Ends calls r) :
    (listenForIntents b64 json xdgRuntimeDir endpoint.asStr once fuel).Ends
      (setupCalls root path endpoint ++ (calls ++ [⟨.removeFile path, .ok ()⟩])) r := by
  have hremove : ((Prog.ofExcept r).finally_ (removeSocket ⟨path, endpoint⟩)).Ends
      [⟨.removeFile path, .ok ()⟩] r := by
    cases r <;> exact Prog.Reaches.perform (Prog.Reaches.here _)
  rw [← List.append_assoc]
  exact (listen_reaches hroot hpath hserve).append hremove

/-- The listener makes its calls. -/
theorem delivery_listener (hroot : runtimeRoot xdgRuntimeDir = .ok root)
    (hpath : socketPath root endpoint = .ok path) (hrequest : IsRequest b64 endpoint intent)
    (hlength : intent.toVec.length ≤ MAX_FRAME_BYTES) :
    (listenForIntents b64 json xdgRuntimeDir endpoint.asStr true (fuel + 1)).Returns
      (setupCalls root path endpoint ++ serveCalls path endpoint intent) () := by
  have hreceipt : (IntentReceiptV1.forwarded endpoint).toVec ≠ [] := List.cons_ne_nil _ _
  have hwrite := writeFrame_returns_once (u := Sockets.serverEnd 0) hreceipt
    (length_forwarded_le endpoint)
  have hrespond : (respond ⟨intent, Sockets.serverEnd 0⟩
      (IntentReceiptV1.forwarded endpoint)).Returns
        (((serveCalls path endpoint intent).drop 5).take 3) () :=
    Prog.ends_ok_iff.1 (Prog.finally_ends_iff.2 ⟨_, .ok (), [_], .ok (), hwrite,
      Prog.Reaches.perform (Prog.Reaches.here _), rfl, rfl⟩)
  have hserve : (serveOne b64 json ⟨path, endpoint⟩).Returns
      ((serveCalls path endpoint intent).take 8) true := by
    refine Prog.bind_returns_iff.2 ⟨_, .ok ⟨intent, Sockets.serverEnd 0⟩, _,
      Prog.caught_returns_iff.2 (accept_returns_serve path hrequest hlength), ?_, rfl⟩
    refine Prog.bind_returns_iff.2 ⟨_, .ok (), _,
      Prog.caught_returns_iff.2 (writeOutput_returns_once _), ?_, rfl⟩
    refine Prog.bind_returns_iff.2 ⟨_, (), [], Prog.ends_ok_iff.1 (Prog.mapError_ends_iff.2
      ⟨.ok (), hrespond, rfl⟩), Prog.Reaches.here _, rfl⟩
  have hloop : (serve b64 json ⟨path, endpoint⟩ true (fuel + 1)).Ends
      ((serveCalls path endpoint intent).take 8) (.ok ()) :=
    Prog.bind_returns_iff.2 ⟨_, true, [], hserve, Prog.Reaches.here _, rfl⟩
  exact listen_ends hroot hpath hloop

variable (b64 json xdgRuntimeDir fuel timeout) in
/-- **A valid intent can be delivered.** -/
theorem exists_delivery (hroot : runtimeRoot xdgRuntimeDir = .ok root)
    (hpath : socketPath root endpoint = .ok path) (hrequest : IsRequest b64 endpoint intent) :
    ∃ w, Exchange b64 json xdgRuntimeDir endpoint true (fuel + 1)
        (fun _ : Unit => ⟨root, intent, timeout⟩)
        (deliveryLabels root path endpoint intent timeout) w ∧
      (Request.program json ⟨root, intent, timeout⟩).Returns
        (Histories.project (.dispatcher ()) (deliveryLabels root path endpoint intent timeout))
        (IntentReceiptV1.forwarded endpoint) := by
  obtain ⟨w, hrun⟩ := delivery_run root path endpoint intent timeout
  obtain ⟨target, htarget⟩ := hrequest.2
  have hlength : intent.toVec.length ≤ MAX_FRAME_BYTES :=
    OpenIntentV1.length_toVec_le (OpenIntentV1.validatePortable_of_path b64 htarget)
  have hlistener : Histories.project .listener (deliveryLabels root path endpoint intent timeout) =
      setupCalls root path endpoint ++ serveCalls path endpoint intent := by
    simp [deliveryLabels, project_map]
  have hdispatcher : Histories.project (.dispatcher ())
      (deliveryLabels root path endpoint intent timeout) =
        sendCalls path intent timeout ++ receiveCalls endpoint := by
    simp [deliveryLabels, project_map]
  have hdispatch := @delivery_dispatcher root path endpoint intent timeout json hpath
    hrequest.1 hlength
  refine ⟨w, ⟨hrun, ⟨.ret (), ?_⟩, fun _ => ⟨.ret (.forwarded endpoint), ?_⟩⟩, ?_⟩
  · rw [hlistener]
    exact delivery_listener hroot hpath hrequest hlength
  · rw [hdispatcher]
    exact hdispatch
  · rw [hdispatcher]
    exact hdispatch

end Delivery

/-- **A forwarded intent has been printed.**  At any moment of a run of one listener with any number
of dispatchers and whoever else connects: what the consumer has seen is the announcement and then
lines, each of which is one valid intent for the endpoint, printed for the connection that sent it,
and no two for the same connection; a dispatcher that returns a receipt that says `forwarded` has a
line with exactly its intent from exactly its connection, which the consumer has seen; and a
connection without such an intent has no line, and its client never receives such a receipt. -/
theorem forwarded_means_handed_over (b64 : Base64.CanonicalCodec) (json : CallbackJson)
    (xdgRuntimeDir : Option PathBuf) (endpoint : EndpointId) (once : Bool) (fuel : ℕ) {ι : Type}
    [DecidableEq ι] (requests : ι → Request) (labels : List (Party ι × Event))
    (w : World (Party ι))
    (h : Exchange b64 json xdgRuntimeDir endpoint once fuel requests labels w) :
    (∀ d receipt,
      ((requests d).program json).Returns (Histories.project (.dispatcher d) labels) receipt →
        receipt.state = .forwarded →
        ∃ path c, ⟨.connect path, .ok (Sockets.clientEnd c)⟩ ∈
            Histories.project (.dispatcher d) labels ∧
          SeenFor labels w c (serializedJson (requests d).intent.toVec)) ∧
    seenLines w <+: readyLine endpoint :: (printedLines labels).map Prod.snd ∧
    (∀ u line, (u, line) ∈ printedLines labels →
      ∃ c intent, u = Sockets.serverEnd c ∧ Sent json w c intent ∧
        line = serializedJson intent.toVec ∧ intent.endpoint = endpoint ∧
        ∃ path, intent.path b64 = .ok path) ∧
    ((printedLines labels).map Prod.fst).Nodup ∧
    ∀ c, (∀ intent, Sent json w c intent → intent.endpoint = endpoint →
        ∀ path, intent.path b64 ≠ .ok path) →
      (∀ line, (Sockets.serverEnd c, line) ∉ printedLines labels) ∧
      ∀ receipt, Received json w c receipt → receipt.state ≠ .forwarded := by
  have hhandles := Sockets.Handles.of_run h.run
  refine ⟨?_, h.seenLines_prefix, ?_, h.reported.opens.nodup (hhandles.opens .listener), ?_⟩
  · intro d receipt hd hstate
    obtain ⟨path, c, hconnect, hown, hreceived⟩ := h.sent_dispatcher hd
    obtain ⟨intent, hsent, -, hseen⟩ := h.seen_of_received hreceived hstate
    rw [hown intent hsent] at hseen
    exact ⟨path, c, hconnect, hseen⟩
  · intro u line hmem
    have haccept : ⟨.accept, .ok u⟩ ∈ Histories.project .listener labels :=
      (accept_mem_of_handoffsFrom hmem).resolve_left nofun
    obtain ⟨c, side⟩ := u
    obtain rfl : side = .server := hhandles.servers _ _ haccept
    obtain ⟨intent, hsent, ⟨hendpoint, hpath⟩, hline⟩ := h.sent_of_mem hmem
    exact ⟨c, intent, rfl, hsent, hline, hendpoint, hpath⟩
  · intro c hnone
    constructor
    · intro line hmem
      obtain ⟨intent, hsent, ⟨hendpoint, path, hpath⟩, -⟩ := h.sent_of_mem hmem
      exact hnone intent hsent hendpoint path hpath
    · intro receipt hreceived hstate
      obtain ⟨intent, hsent, ⟨hendpoint, path, hpath⟩, -⟩ := h.seen_of_received hreceived hstate
      exact hnone intent hsent hendpoint path hpath

/-- An intent for `/tmp/a` is delivered, and the consumer has seen its line. -/
theorem forwarded_means_handed_over_once :
    ∃ labels w path c, Exchange Base64.urlSafeNoPad parsedJson.callbackJson
        (some (Text.asBytes "/run")) sampleEndpoint true 1
        (fun _ : Unit => ⟨Text.asBytes "/run/terminal-interop/intent-v1",
          OpenIntentV1.ofTarget Base64.urlSafeNoPad sampleEndpoint (Text.asBytes "/tmp/a"), 0⟩)
        labels w ∧
      ⟨.connect path, .ok (Sockets.clientEnd c)⟩ ∈
        Histories.project (.dispatcher ()) labels ∧
      SeenFor labels w c (serializedJson (OpenIntentV1.ofTarget Base64.urlSafeNoPad sampleEndpoint
        (Text.asBytes "/tmp/a")).toVec) := by
  have hrequest : IsRequest Base64.urlSafeNoPad sampleEndpoint
      (OpenIntentV1.ofTarget Base64.urlSafeNoPad sampleEndpoint (Text.asBytes "/tmp/a")) := by
    refine ⟨rfl, Text.asBytes "/tmp/a", OpenIntentV1.path_ofTarget _ ?_⟩
    exact ⟨by decide, by decide, by decide, by decide⟩
  obtain ⟨path, hpath⟩ : ∃ path, socketPath (Text.asBytes "/run/terminal-interop/intent-v1")
      sampleEndpoint = .ok path := ⟨_, rfl⟩
  obtain ⟨w, hexchange, hreturns⟩ := exists_delivery 0 Base64.urlSafeNoPad parsedJson.callbackJson
    (some (Text.asBytes "/run")) 0 rfl hpath hrequest
  obtain ⟨hforwarded, -⟩ :=
    forwarded_means_handed_over Base64.urlSafeNoPad parsedJson.callbackJson _
    sampleEndpoint true 1 _ _ w hexchange
  obtain ⟨path', c, hconnect, hseen⟩ := hforwarded () _ hreturns rfl
  exact ⟨_, w, path', c, hexchange, hconnect, hseen⟩

end Callback

end TermInterop
