/-
What a listener and a dispatcher do, call by call.

A listener serves in turns, and one turn has one of a few shapes: nothing was accepted; a connection
was accepted and is being read; its intent names another endpoint, and a rejection is on its way; or
its intent is valid, its line is being handed on, and the receipt that follows says how that went.
These shapes are closed under stopping anywhere, so they describe a listener at any moment.

A transcript is the announcement of the endpoint followed by turns, of which all but the last have
printed their line completely.  `handoffs` reads from a transcript which line was printed for which
connection.

Main definitions:

* `TermInterop.Callback.Turn`, `TermInterop.Callback.Turns`, `TermInterop.Callback.Session` — the
  calls of one turn, of a loop, and of a listener;
* `TermInterop.Callback.handoffs` — the lines, each with its connection.

Main results:

* `TermInterop.Callback.serveOne_reaches`, `TermInterop.Callback.serve_reaches`,
  `TermInterop.Callback.listenForIntents_reaches` — **what a listener has done at any moment**;
* `TermInterop.Callback.dispatch_returns` — what a dispatcher has done when it returns.
-/

import TermInterop.Callback

set_option relaxedAutoImplicit false
set_option autoImplicit false

namespace TermInterop

namespace Callback

open Sockets (Event Net SocketCall Stream readsOf writesOf printedOf opensOf readBy writtenBy
  printedBy openedBy)

/-! ### The shapes of a turn -/

/-- A call that opens no connection, moves no byte and prints nothing. -/
structure Idle (e : Event) : Prop where
  reads : ∀ u, readBy u e = []
  writes : ∀ u, writtenBy u e = []
  prints : ∀ bytes answer, e ≠ ⟨.print bytes, answer⟩
  opens : openedBy e = none

/-- **Printing one line**: the calls so far, and how it has ended. -/
inductive Handing (line : Bytes) : List Event → Option (Except String Unit) → Prop
  | start : Handing line [] none
  | failed (failure : WriteFailure line) :
      Handing line [⟨.print line, .error failure⟩] (some (.error failure.message))
  | printed : Handing line [⟨.print line, .ok ()⟩] none
  | unflushed (message : String) :
      Handing line [⟨.print line, .ok ()⟩, ⟨.flush, .error message⟩] (some (.error message))
  | flushed : Handing line [⟨.print line, .ok ()⟩, ⟨.flush, .ok ()⟩] (some (.ok ()))

/-- Sending one frame, and closing. -/
structure Answers (u : Stream) (payload : Bytes) (events : List Event) : Prop where
  only : ∀ e ∈ events, WriteOn u e ∨ Idle e
  sent : writesOf u events <+: frame payload
  bounded : writesOf u events ≠ [] → payload.length ≤ MAX_FRAME_BYTES

section Turns

variable (b64 : Base64.CanonicalCodec) (json : CallbackJson) (endpoint : EndpointId)

/-- An intent that a listener hands on. -/
def IsRequest (intent : OpenIntentV1) : Prop :=
  intent.endpoint = endpoint ∧ ∃ path, intent.path b64 = .ok path

/-- The bytes are the frame of an intent. -/
def Carries (bytes : Bytes) (intent : OpenIntentV1) : Prop :=
  ∃ payload, payload.length ≤ MAX_FRAME_BYTES ∧ json.intent payload = some intent ∧
    bytes = frame payload

/-- The receipt for an intent that names another endpoint. -/
def mismatchReceipt : IntentReceiptV1 :=
  .rejected endpoint "request endpoint does not match the bound consumer"

/-- **The calls of a turn that hands nothing on**, at any moment of the turn. -/
inductive Accepting : List Event → Prop
  | idle {events : List Event} : (∀ e ∈ events, Idle e) → Accepting events
  | reading {u : Stream} {reads : List Event} :
      (∀ e ∈ reads, ReadOn u e ∨ Idle e) → Accepting (⟨.accept, .ok u⟩ :: reads)
  | refused {u : Stream} {reads writes : List Event} {intent : OpenIntentV1} :
      (∀ e ∈ reads, ReadOn u e) → Carries json (readsOf u reads) intent →
        intent.endpoint ≠ endpoint → Answers u (mismatchReceipt endpoint).toVec writes →
        Accepting (⟨.accept, .ok u⟩ :: (reads ++ writes))

/-- **The calls of one turn**, at any moment of the turn. -/
inductive Turn : List Event → Prop
  | accepting {events : List Event} : Accepting json endpoint events → Turn events
  | handing {u : Stream} {reads prints : List Event} {intent : OpenIntentV1}
      {r : Option (Except String Unit)} :
      (∀ e ∈ reads, ReadOn u e) → Carries json (readsOf u reads) intent →
        IsRequest b64 endpoint intent → Handing (serializedJson intent.toVec) prints r →
        Turn (⟨.accept, .ok u⟩ :: (reads ++ prints))
  | answered {u : Stream} {reads prints writes : List Event} {intent : OpenIntentV1}
      {r : Except String Unit} :
      (∀ e ∈ reads, ReadOn u e) → Carries json (readsOf u reads) intent →
        IsRequest b64 endpoint intent → Handing (serializedJson intent.toVec) prints (some r) →
        Answers u (receiptFor endpoint r).toVec writes →
        Turn (⟨.accept, .ok u⟩ :: (reads ++ (prints ++ writes)))

/-- No line was printed in part. -/
def Unbroken (events : List Event) : Prop :=
  ∀ bytes failure, ⟨.print bytes, .error failure⟩ ∉ events

/-- **The calls of a loop**: turns, of which only the last may have broken a line. -/
inductive Turns : List Event → Prop
  | last {events : List Event} : Turn b64 json endpoint events → Turns events
  | cons {turn events : List Event} :
      Turn b64 json endpoint turn → Unbroken turn → Turns events → Turns (turn ++ events)

/-- **The calls of a listener**: it binds its socket, announces the endpoint, serves in turns, and
removes the socket. -/
inductive Session : List Event → Prop
  | binding {setup : List Event} : (∀ e ∈ setup, Idle e) → Session setup
  | announcing {setup prints cleanup : List Event} {r : Option (Except String Unit)} :
      (∀ e ∈ setup, Idle e) →
        Handing (serializedJson (IntentReadyV1.new endpoint).toVec) prints r →
        (∀ e ∈ cleanup, Idle e) → Session (setup ++ (prints ++ cleanup))
  | serving {setup prints turns cleanup : List Event} :
      (∀ e ∈ setup, Idle e) →
        Handing (serializedJson (IntentReadyV1.new endpoint).toVec) prints (some (.ok ())) →
        Turns b64 json endpoint turns → (∀ e ∈ cleanup, Idle e) →
        Session (setup ++ (prints ++ (turns ++ cleanup)))

end Turns

/-! ### One turn -/

section Programs

variable {b64 : Base64.CanonicalCodec} {json : CallbackJson} {endpoint : EndpointId}
  {listener : IntentListener} {u : Stream} {events : List Event}

theorem idle_close (u : Stream) (answer : Unit) : Idle ⟨.close u, answer⟩ :=
  ⟨fun _ => rfl, fun _ => rfl, nofun, rfl⟩

theorem idle_eprint (answer : Except String Unit) : Idle ⟨.eprint, answer⟩ :=
  ⟨fun _ => rfl, fun _ => rfl, nofun, rfl⟩

theorem dropStream_idle {ε : Type} {left : Net ε Unit}
    (h : (dropStream u : Net ε Unit).Reaches events left) : ∀ e ∈ events, Idle e := by
  rcases Prog.perform_reaches_iff.1 h with ⟨rfl, -⟩ | ⟨answer, rest, rfl, hrest⟩
  · simp
  · rw [(Prog.ret_reaches_iff.1 hrest).1, List.forall_mem_singleton]
    exact idle_close u answer

theorem complain_idle {left : Net ListenFailure Unit} (h : complain.Reaches events left) :
    ∀ e ∈ events, Idle e := by
  rcases Prog.perform_reaches_iff.1 h with ⟨rfl, -⟩ | ⟨answer, rest, rfl, hrest⟩
  · simp
  · obtain rfl : rest = [] := by
      cases answer with
      | ok a => exact (Prog.ret_reaches_iff.1 hrest).1
      | error message => exact (Prog.fail_reaches_iff.1 hrest).1
    rw [List.forall_mem_singleton]
    exact idle_eprint answer

/-- How a line is printed. -/
theorem writeOutput_reaches {line : Bytes} {left : Net String Unit}
    (h : (writeOutput line).Reaches events left) :
    ∃ r, Handing line events r ∧ ∀ q, left = Prog.ofExcept q → r = some q := by
  rcases Prog.perform_reaches_iff.1 h with ⟨rfl, rfl⟩ | ⟨answer, rest, rfl, hrest⟩
  · refine ⟨none, .start, fun q hq => ?_⟩
    cases q <;> cases hq
  · cases answer with
    | error failure =>
        obtain ⟨rfl, rfl⟩ := Prog.fail_reaches_iff.1 hrest
        refine ⟨_, .failed failure, fun q hq => ?_⟩
        cases q with
        | ok a => cases hq
        | error message => rw [Prog.fail.inj hq]
    | ok a =>
        rcases Prog.perform_reaches_iff.1 hrest with ⟨rfl, rfl⟩ | ⟨answer, rest', rfl, hrest'⟩
        · refine ⟨none, .printed, fun q hq => ?_⟩
          cases q <;> cases hq
        · obtain ⟨rfl, rfl⟩ := Prog.ofExcept_reaches hrest'
          cases answer with
          | error message =>
              refine ⟨_, .unflushed message, fun q hq => ?_⟩
              cases q with
              | ok a => cases hq
              | error message => rw [Prog.fail.inj hq]
          | ok a =>
              refine ⟨_, .flushed, fun q hq => ?_⟩
              cases q with
              | ok a => rfl
              | error message => cases hq

/-- **What is done with a connection that was accepted.** -/
theorem acceptBody_reaches {left : Net IntentError IncomingIntent}
    (h : (acceptBody b64 json listener u).Reaches events left) :
    (∀ e ∈ events, ReadOn u e) ∨
      ∃ reads writes intent, (∀ e ∈ reads, ReadOn u e) ∧ Carries json (readsOf u reads) intent ∧
        intent.endpoint ≠ listener.endpoint ∧
        Answers u (mismatchReceipt listener.endpoint).toVec writes ∧ events = reads ++ writes := by
  rcases Prog.bind_reaches_iff.1 h with ⟨z, hz, -⟩ | ⟨reads, intent, rest, hread, hrest, rfl⟩
  · exact Or.inl (readFrame_only hz)
  · have honly := readFrame_only hread
    obtain ⟨payload, hlength, hparse, hreads⟩ := readFrame_returns hread
    split_ifs at hrest with hendpoint
    · -- another endpoint: the rejection is best effort
      refine Or.inr ⟨reads, rest, intent, honly, ⟨payload, hlength, hparse, hreads⟩, hendpoint, ?_,
        rfl⟩
      have hwrites : ∀ {writes : List Event} {left : Net IntentError Unit},
          (Prog.ignored (writeFrame u (mismatchReceipt listener.endpoint).toVec)).Reaches
            writes left → Answers u (mismatchReceipt listener.endpoint).toVec writes := by
        intro writes left hwrites
        obtain ⟨y, hy⟩ := Prog.ignored_reaches hwrites
        obtain ⟨hwrite, hsent, hbounded⟩ := writeFrame_sent hy
        exact ⟨fun e he => Or.inl (hwrite e he), hsent, hbounded⟩
      rcases Prog.bind_reaches_iff.1 hrest with ⟨z, hz, -⟩ | ⟨writes, _, rest, hw, hfail, rfl⟩
      · exact hwrites hz
      · obtain ⟨rfl, -⟩ := Prog.fail_reaches_iff.1 hfail
        rw [List.append_nil]
        exact hwrites hw
    · refine Or.inl ?_
      obtain rfl : rest = [] := by
        rcases Prog.bind_reaches_iff.1 hrest with ⟨z, hz, -⟩ | ⟨_, _, _, hpath, hret, rfl⟩
        · exact (Prog.ofExcept_reaches hz).1
        · rw [(Prog.ofExcept_reaches hpath).1, (Prog.ret_reaches_iff.1 hret).1]
          rfl
      rwa [List.append_nil]

/-- **How an intent is received.** -/
theorem acceptBody_returns {incoming : IncomingIntent}
    (h : (acceptBody b64 json listener u).Returns events incoming) :
    incoming.stream = u ∧ (∀ e ∈ events, ReadOn u e) ∧
      Carries json (readsOf u events) incoming.intent ∧
      IsRequest b64 listener.endpoint incoming.intent := by
  obtain ⟨reads, intent, rest, hread, hrest, rfl⟩ := Prog.bind_returns_iff.1 h
  obtain ⟨payload, hlength, hparse, hreads⟩ := readFrame_returns hread
  split_ifs at hrest with hendpoint
  · obtain ⟨_, _, _, -, hfail, -⟩ := Prog.bind_returns_iff.1 hrest
    exact absurd hfail Prog.not_fail_returns
  · obtain ⟨_, path, _, hpath, hret, rfl⟩ := Prog.bind_returns_iff.1 hrest
    obtain ⟨rfl, hok⟩ := Prog.ofExcept_returns_iff.1 hpath
    obtain ⟨rfl, rfl⟩ := Prog.ret_returns_iff.1 hret
    rw [List.append_nil, List.append_nil]
    exact ⟨rfl, readFrame_only hread, ⟨payload, hlength, hparse, hreads⟩,
      not_not.1 hendpoint, path, hok⟩

/-- Idle calls may follow an answer. -/
theorem Answers.append_idle {payload : Bytes} {idle : List Event} (h : Answers u payload events)
    (hidle : ∀ e ∈ idle, Idle e) : Answers u payload (events ++ idle) := by
  have hnone : writesOf u idle = [] :=
    List.flatMap_eq_nil_iff.2 fun e he => (hidle e he).writes u
  refine ⟨List.forall_mem_append.2 ⟨h.only, fun e he => Or.inr (hidle e he)⟩, ?_, ?_⟩
  · rw [Sockets.writesOf_append, hnone, List.append_nil]
    exact h.sent
  · rw [Sockets.writesOf_append, hnone, List.append_nil]
    exact h.bounded

/-- Idle calls may follow a turn that hands nothing on. -/
theorem Accepting.append_idle {idle : List Event} (h : Accepting json endpoint events)
    (hidle : ∀ e ∈ idle, Idle e) : Accepting json endpoint (events ++ idle) := by
  cases h with
  | idle hevents => exact .idle (List.forall_mem_append.2 ⟨hevents, hidle⟩)
  | reading hreads =>
      exact .reading (List.forall_mem_append.2 ⟨hreads, fun e he => Or.inr (hidle e he)⟩)
  | refused hreads hcarries hne hanswers =>
      rw [List.cons_append, List.append_assoc]
      exact .refused hreads hcarries hne (hanswers.append_idle hidle)

/-- The calls of `accept`, at any moment. -/
theorem accept_reaches {left : Net IntentError IncomingIntent}
    (h : (accept b64 json listener).Reaches events left) :
    Accepting json listener.endpoint events := by
  rcases Prog.perform_reaches_iff.1 h with ⟨rfl, -⟩ | ⟨answer, rest, rfl, hrest⟩
  · exact .idle (by simp)
  · cases answer with
    | error message =>
        rw [(Prog.fail_reaches_iff.1 hrest).1]
        refine .idle ?_
        rw [List.forall_mem_singleton]
        exact ⟨fun _ => rfl, fun _ => rfl, nofun, rfl⟩
    | ok u =>
        have hbody : ∀ {calls : List Event} {left : Net IntentError IncomingIntent},
            (acceptBody b64 json listener u).Reaches calls left →
              Accepting json listener.endpoint (⟨.accept, .ok u⟩ :: calls) := by
          intro calls left hcalls
          rcases acceptBody_reaches hcalls with hreads |
            ⟨reads, writes, intent, hreads, hcarries, hne, hanswers, rfl⟩
          · exact .reading fun e he => Or.inl (hreads e he)
          · exact .refused hreads hcarries hne hanswers
        rcases Prog.onFailure_reaches hrest with ⟨y, hy⟩ | ⟨e₁, error, e₂, z, hfail, hclose, rfl⟩
        · exact hbody hy
        · exact (hbody hfail).append_idle (dropStream_idle hclose)

/-- **How an intent is received**, from the accepted connection on. -/
theorem accept_returns {incoming : IncomingIntent}
    (h : (accept b64 json listener).Returns events incoming) :
    ∃ reads, events = ⟨.accept, .ok incoming.stream⟩ :: reads ∧
      (∀ e ∈ reads, ReadOn incoming.stream e) ∧
      Carries json (readsOf incoming.stream reads) incoming.intent ∧
      IsRequest b64 listener.endpoint incoming.intent := by
  obtain ⟨_, answer, _, hcall, hrest, rfl⟩ := Prog.bind_returns_iff.1 h
  obtain rfl := Prog.call_returns_iff.1 hcall
  obtain ⟨_, u, body, hio, hbody, rfl⟩ := Prog.bind_returns_iff.1 hrest
  obtain ⟨rfl, rfl⟩ := io_returns_iff.1 hio
  rcases Prog.onFailure_ends_iff.1 (Prog.ends_ok_iff.2 hbody) with ⟨a, hok, heq⟩ |
    ⟨_, _, _, r₂, -, -, -, heq⟩
  · obtain rfl := Except.ok.inj heq
    obtain ⟨rfl, hreads, hcarries, hrequest⟩ := acceptBody_returns hok
    exact ⟨body, rfl, hreads, hcarries, hrequest⟩
  · cases r₂ <;> cases heq

/-- The calls of `respond`, at any moment. -/
theorem respond_reaches {incoming : IncomingIntent} {receipt : IntentReceiptV1}
    {left : Net IntentError Unit} (h : (respond incoming receipt).Reaches events left) :
    Answers incoming.stream receipt.toVec events := by
  have hwrite : ∀ {calls : List Event} {left : Net IntentError Unit},
      (writeFrame incoming.stream receipt.toVec).Reaches calls left →
        Answers incoming.stream receipt.toVec calls := by
    intro calls left hcalls
    obtain ⟨honly, hsent, hbounded⟩ := writeFrame_sent hcalls
    exact ⟨fun e he => Or.inl (honly e he), hsent, hbounded⟩
  rcases Prog.finally_reaches h with ⟨y, hy, -⟩ | ⟨e₁, r, e₂, z, hends, hclose, rfl, -⟩
  · exact hwrite hy
  · exact (hwrite hends).append_idle (dropStream_idle hclose)

/-- A turn that hands nothing on prints nothing. -/
theorem Accepting.unbroken (h : Accepting json endpoint events) : Unbroken events := by
  have hread : ∀ {u : Stream} {reads : List Event} {bytes : Bytes} {failure : WriteFailure bytes},
      (∀ e ∈ reads, ReadOn u e ∨ Idle e) → ⟨.print bytes, .error failure⟩ ∉ reads := by
    intro u reads bytes failure hreads hmem
    rcases hreads _ hmem with ⟨_, _, heq⟩ | hidle
    · cases heq
    · exact hidle.prints _ _ rfl
  intro bytes failure hmem
  cases h with
  | idle hevents => exact (hevents _ hmem).prints _ _ rfl
  | reading hreads =>
      rcases List.mem_cons.1 hmem with heq | hmem
      · cases heq
      · exact hread hreads hmem
  | refused hreads _ _ hanswers =>
      rcases List.mem_cons.1 hmem with heq | hmem
      · cases heq
      · rcases List.mem_append.1 hmem with hmem | hmem
        · exact hread (fun e he => Or.inl (hreads e he)) hmem
        · rcases hanswers.only _ hmem with ⟨_, _, heq⟩ | hidle
          · cases heq
          · exact hidle.prints _ _ rfl

/-- A turn that has printed its line is unbroken. -/
theorem unbroken_answered {reads prints writes : List Event} {line payload : Bytes}
    (hreads : ∀ e ∈ reads, ReadOn u e) (hprints : Handing line prints (some (.ok ())))
    (hanswers : Answers u payload writes) :
    Unbroken (⟨.accept, .ok u⟩ :: (reads ++ (prints ++ writes))) := by
  intro bytes failure hmem
  rcases List.mem_cons.1 hmem with heq | hmem
  · cases heq
  · rcases List.mem_append.1 hmem with hmem | hmem
    · obtain ⟨_, _, heq⟩ := hreads _ hmem
      cases heq
    · rcases List.mem_append.1 hmem with hmem | hmem
      · cases hprints with
        | flushed =>
            rcases List.mem_cons.1 hmem with heq | hmem
            · cases heq
            · cases List.mem_singleton.1 hmem
      · rcases hanswers.only _ hmem with ⟨_, _, heq⟩ | hidle
        · cases heq
        · exact hidle.prints _ _ rfl

/-- What acknowledges an intent answers its connection; and it returns only for a line that was
printed. -/
theorem acknowledge_reaches {incoming : IncomingIntent} {r : Except String Unit}
    {left : Net ListenFailure Bool} (h : (acknowledge listener incoming r).Reaches events left) :
    Answers incoming.stream (receiptFor listener.endpoint r).toVec events ∧
      ∀ handed, left = .ret handed → r = .ok () := by
  rcases Prog.bind_reaches_iff.1 h with ⟨z, hz, rfl⟩ | ⟨writes, _, last, hw, hlast, rfl⟩
  · obtain ⟨y, hy⟩ := Prog.mapError_reaches hz
    refine ⟨respond_reaches hy, fun handed hleft => ?_⟩
    cases r with
    | ok a => rfl
    | error message => cases z <;> cases hleft
  · obtain ⟨y, hy⟩ := Prog.mapError_reaches hw
    cases r with
    | ok a =>
        rw [(Prog.ret_reaches_iff.1 hlast).1, List.append_nil]
        exact ⟨respond_reaches hy, fun _ _ => rfl⟩
    | error message =>
        obtain ⟨rfl, rfl⟩ := Prog.fail_reaches_iff.1 hlast
        rw [List.append_nil]
        exact ⟨respond_reaches hy, nofun⟩

/-- What hands an intent on prints its line and answers; and it returns only for a line that was
printed. -/
theorem handOn_reaches {incoming : IncomingIntent} {left : Net ListenFailure Bool}
    (h : (handOn listener incoming).Reaches events left) :
    (∃ r, Handing (serializedJson incoming.intent.toVec) events r ∧
      ∀ handed, left ≠ .ret handed) ∨
      ∃ prints r writes, Handing (serializedJson incoming.intent.toVec) prints (some r) ∧
        Answers incoming.stream (receiptFor listener.endpoint r).toVec writes ∧
        events = prints ++ writes ∧ ∀ handed, left = .ret handed → r = .ok () := by
  have hstart : ∀ r, (acknowledge listener incoming r).Reaches []
      (acknowledge listener incoming r) := fun r => Prog.Reaches.here _
  rcases Prog.bind_reaches_iff.1 h with ⟨z, hz, rfl⟩ | ⟨prints, r, writes, hp, hw, rfl⟩
  · obtain ⟨y, hy, rfl⟩ := Prog.caught_reaches_iff.1 hz
    obtain ⟨r, hhanding, hdone⟩ := writeOutput_reaches hy
    cases y with
    | unfinished => exact Or.inl ⟨r, hhanding, nofun⟩
    | perform op next => exact Or.inl ⟨r, hhanding, nofun⟩
    | ret a =>
        rw [hdone (.ok a) rfl] at hhanding
        obtain ⟨hanswers, hok⟩ := acknowledge_reaches (hstart (.ok a))
        refine Or.inr ⟨events, .ok a, [], hhanding, hanswers, (List.append_nil _).symm, ?_⟩
        simpa only [Prog.caught, Prog.ret_bind] using hok
    | fail message =>
        rw [hdone (.error message) rfl] at hhanding
        obtain ⟨hanswers, hok⟩ := acknowledge_reaches (hstart (.error message))
        refine Or.inr ⟨events, .error message, [], hhanding, hanswers,
          (List.append_nil _).symm, ?_⟩
        simpa only [Prog.caught, Prog.ret_bind] using hok
  · rw [Prog.caught_returns_iff] at hp
    obtain ⟨r', hhanding, hdone⟩ := writeOutput_reaches hp
    obtain rfl := hdone r rfl
    obtain ⟨hanswers, hok⟩ := acknowledge_reaches hw
    exact Or.inr ⟨prints, r, writes, hhanding, hanswers, rfl, hok⟩

/-- **What one turn has done at any moment**; and if it is over and has not failed, its line was
printed. -/
theorem serveOne_reaches {left : Net ListenFailure Bool}
    (h : (serveOne b64 json listener).Reaches events left) :
    Turn b64 json listener.endpoint events ∧ ∀ handed, left = .ret handed → Unbroken events := by
  rcases Prog.bind_reaches_iff.1 h with ⟨z, hz, rfl⟩ | ⟨accepted, r, rest, hr, hrest, rfl⟩
  · obtain ⟨y, hy, rfl⟩ := Prog.caught_reaches_iff.1 hz
    exact ⟨.accepting (accept_reaches hy), fun _ _ => (accept_reaches hy).unbroken⟩
  · rw [Prog.caught_returns_iff] at hr
    cases r with
    | error error =>
        have haccepting := accept_reaches hr
        have hidle : ∀ e ∈ rest, Idle e := by
          rcases Prog.bind_reaches_iff.1 hrest with ⟨z, hz, -⟩ | ⟨e₁, _, e₂, hc, hret, rfl⟩
          · exact complain_idle hz
          · rw [(Prog.ret_reaches_iff.1 hret).1, List.append_nil]
            exact complain_idle hc
        have hall := haccepting.append_idle hidle
        exact ⟨.accepting hall, fun _ _ => hall.unbroken⟩
    | ok incoming =>
        obtain ⟨reads, rfl, hreads, hcarries, hrequest⟩ := accept_returns hr
        rcases handOn_reaches hrest with ⟨r, hhanding, hnot⟩ |
          ⟨prints, r, writes, hhanding, hanswers, rfl, hok⟩
        · exact ⟨.handing hreads hcarries hrequest hhanding,
            fun handed hleft => absurd hleft (hnot handed)⟩
        · refine ⟨.answered hreads hcarries hrequest hhanding hanswers, fun handed hleft => ?_⟩
          obtain rfl := hok handed hleft
          exact unbroken_answered hreads hhanding hanswers

/-- **What a loop has done at any moment.** -/
theorem serve_reaches {once : Bool} {fuel : ℕ} {left : Net ListenFailure Unit}
    (h : (serve b64 json listener once fuel).Reaches events left) :
    Turns b64 json listener.endpoint events := by
  induction fuel generalizing events with
  | zero =>
      rw [(Prog.unfinished_reaches_iff.1 h).1]
      exact .last (.accepting (.idle (by simp)))
  | succ fuel ih =>
      rcases Prog.bind_reaches_iff.1 h with ⟨z, hz, -⟩ | ⟨turn, handed, rest, hturn, hrest, rfl⟩
      · exact .last (serveOne_reaches hz).1
      · obtain ⟨hshape, hunbroken⟩ := serveOne_reaches hturn
        split_ifs at hrest with hstop
        · rw [(Prog.ret_reaches_iff.1 hrest).1, List.append_nil]
          exact .last hshape
        · exact .cons hshape (hunbroken handed rfl) (ih hrest)

/-! ### A listener -/

/-- What always holds of idle programs. -/
abbrev AlwaysIdle {ε α : Type} (x : Net ε α) : Prop :=
  ∀ past, Prog.Always (fun _ e => Idle e) past x

theorem AlwaysIdle.bind {ε α β : Type} {x : Net ε α} {f : α → Net ε β} (hx : AlwaysIdle x)
    (hf : ∀ a, AlwaysIdle (f a)) : AlwaysIdle (x >>= f) :=
  fun past => (hx past).bind fun _ a _ => hf a _

theorem alwaysIdle_io {α : Type} {answer : Except String α} : AlwaysIdle (io answer) :=
  fun _ => Prog.Always.ofExcept

theorem alwaysIdle_prepareRuntimeRoot (root : PathBuf) : AlwaysIdle (prepareRuntimeRoot root) := by
  have hidle : ∀ {op : SocketCall} {answer : op.Answer},
      (op = .createDirAll root ∨ op = .setPermissions root 0o700 ∨ op = .symlinkMetadata root) →
        Idle ⟨op, answer⟩ := by
    rintro op answer (rfl | rfl | rfl) <;> exact ⟨fun _ => rfl, fun _ => rfl, nofun, rfl⟩
  refine .bind (fun _ => .call fun _ => hidle (Or.inl rfl)) fun _ => .bind alwaysIdle_io fun _ => ?_
  refine .bind (fun _ => .call fun _ => hidle (Or.inr (Or.inl rfl))) fun _ =>
    .bind alwaysIdle_io fun _ => ?_
  refine .bind (fun _ => .call fun _ => hidle (Or.inr (Or.inr rfl))) fun _ =>
    .bind alwaysIdle_io fun _ => ?_
  exact fun _ => Prog.Always.ensure

/-- Binding a socket moves no byte of any stream. -/
theorem alwaysIdle_bind (root : PathBuf) (endpoint : EndpointId) :
    AlwaysIdle (bind root endpoint) := by
  have hidle : ∀ {op : SocketCall} {answer : op.Answer} {path : PathBuf},
      (op = .exists_ path ∨ op = .bind path ∨ op = .setPermissions path 0o600) →
        Idle ⟨op, answer⟩ := by
    rintro op answer path (rfl | rfl | rfl) <;> exact ⟨fun _ => rfl, fun _ => rfl, nofun, rfl⟩
  refine .bind (alwaysIdle_prepareRuntimeRoot root) fun _ => ?_
  refine .bind (fun _ => .ofExcept) fun path => ?_
  refine .bind (fun _ => .call fun _ => hidle (Or.inl rfl)) fun exists_ => ?_
  cases exists_ with
  | true => exact fun _ => trivial
  | false =>
      refine .bind (fun _ => .call fun _ => hidle (Or.inr (Or.inl rfl))) fun _ =>
        .bind alwaysIdle_io fun _ => ?_
      refine .bind (fun _ => .call fun _ => hidle (Or.inr (Or.inr rfl))) fun _ =>
        .bind alwaysIdle_io fun _ => ?_
      exact fun _ => trivial

theorem removeSocket_idle {left : Net ListenFailure Unit}
    (h : (removeSocket listener).Reaches events left) : ∀ e ∈ events, Idle e := by
  rcases Prog.perform_reaches_iff.1 h with ⟨rfl, -⟩ | ⟨answer, rest, rfl, hrest⟩
  · simp
  · rw [(Prog.ret_reaches_iff.1 hrest).1, List.forall_mem_singleton]
    exact ⟨fun _ => rfl, fun _ => rfl, nofun, rfl⟩

/-- A bound listener is bound to the endpoint that was asked for. -/
theorem bind_returns {root : PathBuf} {bound : IntentListener}
    (h : (bind root endpoint).Returns events bound) : bound.endpoint = endpoint := by
  obtain ⟨_, _, _, -, hpath, -⟩ := Prog.bind_returns_iff.1 h
  obtain ⟨_, path, _, -, hexists, -⟩ := Prog.bind_returns_iff.1 hpath
  obtain ⟨_, exists_, _, -, hrest, -⟩ := Prog.bind_returns_iff.1 hexists
  cases exists_ with
  | true => exact absurd hrest Prog.not_fail_returns
  | false =>
      obtain ⟨_, _, _, -, hbind, -⟩ := Prog.bind_returns_iff.1 hrest
      obtain ⟨_, _, _, -, hmode, -⟩ := Prog.bind_returns_iff.1 hbind
      obtain ⟨_, _, _, -, hio, -⟩ := Prog.bind_returns_iff.1 hmode
      obtain ⟨_, _, _, -, hret, -⟩ := Prog.bind_returns_iff.1 hio
      rw [(Prog.ret_returns_iff.1 hret).2]

/-- The announcement of an endpoint, and then its turns. -/
def announced (b64 : Base64.CanonicalCodec) (json : CallbackJson) (listener : IntentListener)
    (once : Bool) (fuel : ℕ) : Net ListenFailure Unit := do
  (writeOutput (serializedJson (IntentReadyV1.new listener.endpoint).toVec)).mapError
    fun message => .app (.io message)
  serve b64 json listener once fuel

/-- What an announced listener has done at any moment. -/
theorem announced_reaches {once : Bool} {fuel : ℕ} {left : Net ListenFailure Unit}
    (h : (announced b64 json listener once fuel).Reaches events left) :
    (∃ r, Handing (serializedJson (IntentReadyV1.new listener.endpoint).toVec) events r) ∨
      ∃ prints turns, Handing (serializedJson (IntentReadyV1.new listener.endpoint).toVec) prints
          (some (.ok ())) ∧ Turns b64 json listener.endpoint turns ∧ events = prints ++ turns := by
  rcases Prog.bind_reaches_iff.1 h with ⟨z, hz, -⟩ | ⟨prints, _, turns, hp, ht, rfl⟩
  · obtain ⟨y, hy⟩ := Prog.mapError_reaches hz
    obtain ⟨r, hhanding, -⟩ := writeOutput_reaches hy
    exact Or.inl ⟨r, hhanding⟩
  · obtain ⟨q, hends, hq⟩ := Prog.mapError_ends_iff.1 (Prog.ends_ok_iff.2 hp)
    obtain ⟨r, hhanding, hdone⟩ := writeOutput_reaches hends
    obtain rfl := hdone q rfl
    cases q with
    | error message => cases hq
    | ok a => exact Or.inr ⟨prints, turns, hhanding, serve_reaches ht, rfl⟩

/-- **What a listener has done at any moment.** -/
theorem listenForIntents_reaches {xdgRuntimeDir : Option PathBuf} {once : Bool} {fuel : ℕ}
    {left : Net ListenFailure Unit}
    (h : (listenForIntents b64 json xdgRuntimeDir endpoint.asStr once fuel).Reaches events left) :
    Session b64 json endpoint events := by
  have hnil : Session b64 json endpoint [] := .binding (by simp)
  rcases Prog.bind_reaches_iff.1 h with ⟨z, hz, -⟩ | ⟨_, parsed, rest, hparse, hrest, rfl⟩
  · rwa [(Prog.ofExcept_reaches hz).1]
  · obtain ⟨rfl, hok⟩ := Prog.ofExcept_returns_iff.1 hparse
    rw [EndpointId.parse_eq_ok_iff.2 rfl] at hok
    obtain rfl : endpoint = parsed := Except.ok.inj hok
    rw [List.nil_append]
    rcases Prog.bind_reaches_iff.1 hrest with ⟨z, hz, -⟩ | ⟨_, root, rest, hroot, hbound, rfl⟩
    · rwa [(Prog.ofExcept_reaches hz).1]
    · rw [(Prog.ofExcept_reaches hroot).1, List.nil_append]
      rcases Prog.bind_reaches_iff.1 hbound with
        ⟨z, hz, -⟩ | ⟨setup, bound, rest, hbind, hlast, rfl⟩
      · obtain ⟨y, hy⟩ := Prog.mapError_reaches hz
        exact .binding ((alwaysIdle_bind root endpoint []).forall_mem hy)
      · obtain ⟨q, hends, hq⟩ := Prog.mapError_ends_iff.1 (Prog.ends_ok_iff.2 hbind)
        have hsetup := (alwaysIdle_bind root endpoint []).forall_mem hends
        obtain ⟨a, rfl⟩ : ∃ a, q = .ok a := by
          cases q with
          | ok a => exact ⟨a, rfl⟩
          | error error => cases hq
        obtain rfl := Except.ok.inj hq
        obtain rfl := bind_returns hends
        have hserving : ∀ {calls cleanup : List Event} {left : Net ListenFailure Unit},
            (announced b64 json bound once fuel).Reaches calls left →
              (∀ e ∈ cleanup, Idle e) →
              Session b64 json bound.endpoint (setup ++ (calls ++ cleanup)) := by
          intro calls cleanup left hcalls hcleanup
          rcases announced_reaches hcalls with
            ⟨r, hhanding⟩ | ⟨prints, turns, hhanding, hturns, rfl⟩
          · exact .announcing hsetup hhanding hcleanup
          · rw [List.append_assoc]
            exact .serving hsetup hhanding hturns hcleanup
        rcases Prog.finally_reaches hlast with ⟨y, hy, -⟩ | ⟨e₁, r, e₂, z, hr, hclean, rfl, -⟩
        · have hsession := hserving hy (List.forall_mem_nil Idle)
          rwa [List.append_nil] at hsession
        · exact hserving hr (removeSocket_idle hclean)

/-! ### A dispatcher -/

/-- **What a dispatcher has done when it returns**: it has sent its intent, and has read the receipt
that it returns. -/
theorem dispatch_returns {root : PathBuf} {intent : OpenIntentV1} {timeout : ℕ}
    {receipt : IntentReceiptV1}
    (h : (dispatch json root intent timeout).Returns events receipt) :
    ∃ path v, ⟨.connect path, .ok v⟩ ∈ events ∧ intent.toVec.length ≤ MAX_FRAME_BYTES ∧
      writesOf v events = frame intent.toVec ∧
      (∃ payload, payload.length ≤ MAX_FRAME_BYTES ∧ json.receipt payload = some receipt ∧
        readsOf v events = frame payload) ∧
      receipt.endpoint = intent.endpoint := by
  obtain ⟨_, path, _, hpath, hconnect, rfl⟩ := Prog.bind_returns_iff.1 h
  obtain ⟨rfl, -⟩ := Prog.ofExcept_returns_iff.1 hpath
  obtain ⟨_, answer, _, hcall, hio, rfl⟩ := Prog.bind_returns_iff.1 hconnect
  obtain rfl := Prog.call_returns_iff.1 hcall
  obtain ⟨_, v, body, hv, hbody, rfl⟩ := Prog.bind_returns_iff.1 hio
  obtain ⟨rfl, rfl⟩ := io_returns_iff.1 hv
  obtain ⟨calls, r, closing, r₂, hcalls, hclosing, rfl, hr⟩ :=
    Prog.finally_ends_iff.1 (Prog.ends_ok_iff.2 hbody)
  obtain rfl : r = .ok receipt := by
    cases r₂ with
    | ok a => exact hr.symm
    | error error => cases hr
  have hidle := dropStream_idle hclosing
  obtain ⟨_, readTimeout, _, h₁, hcalls₁, rfl⟩ := Prog.bind_returns_iff.1 hcalls
  obtain rfl := Prog.call_returns_iff.1 h₁
  obtain ⟨_, _, _, h₂, hcalls₂, rfl⟩ := Prog.bind_returns_iff.1 hcalls₁
  obtain ⟨rfl, -⟩ := io_returns_iff.1 h₂
  obtain ⟨_, writeTimeout, _, h₃, hcalls₃, rfl⟩ := Prog.bind_returns_iff.1 hcalls₂
  obtain rfl := Prog.call_returns_iff.1 h₃
  obtain ⟨_, _, _, h₄, hcalls₄, rfl⟩ := Prog.bind_returns_iff.1 hcalls₃
  obtain ⟨rfl, -⟩ := io_returns_iff.1 h₄
  obtain ⟨writes, ⟨⟩, _, hwrites, hcalls₅, rfl⟩ := Prog.bind_returns_iff.1 hcalls₄
  obtain ⟨reads, read, _, hreads, hcalls₆, rfl⟩ := Prog.bind_returns_iff.1 hcalls₅
  obtain ⟨_, _, _, hvalid, hcalls₇, rfl⟩ := Prog.bind_returns_iff.1 hcalls₆
  obtain ⟨rfl, -⟩ := Prog.ofExcept_returns_iff.1 hvalid
  obtain ⟨_, _, _, hendpoint, hret, rfl⟩ := Prog.bind_returns_iff.1 hcalls₇
  obtain ⟨rfl, heq⟩ := Prog.ensure_returns_iff.1 hendpoint
  obtain ⟨rfl, rfl⟩ := Prog.ret_returns_iff.1 hret
  obtain ⟨hlength, hsent⟩ := writeFrame_returns hwrites
  obtain ⟨payload, hpayload, hparse, hreceived⟩ := readFrame_returns hreads
  have hreadsOnly := readFrame_only hreads
  have hwritesOnly := (writeFrame_sent hwrites).1
  have hw : writesOf v reads = [] ∧ writesOf v closing = [] := by
    constructor
    · refine List.flatMap_eq_nil_iff.2 fun e he => ?_
      obtain ⟨_, _, rfl⟩ := hreadsOnly e he
      rfl
    · exact List.flatMap_eq_nil_iff.2 fun e he => (hidle e he).writes v
  have hr : readsOf v writes = [] ∧ readsOf v closing = [] := by
    constructor
    · refine List.flatMap_eq_nil_iff.2 fun e he => ?_
      obtain ⟨_, _, rfl⟩ := hwritesOnly e he
      rfl
    · exact List.flatMap_eq_nil_iff.2 fun e he => (hidle e he).reads v
  refine ⟨path, v, by simp, hlength, ?_, ⟨payload, hpayload, hparse, ?_⟩, of_decide_eq_true heq⟩
  · simp [writtenBy, hsent, hw]
  · simp [readBy, hreceived, hr]

end Programs

end Callback

end TermInterop
