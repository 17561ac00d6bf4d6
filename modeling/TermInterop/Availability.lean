/-
What ends a listener.

A connection that cannot be read, or whose intent is malformed or names another endpoint, is dropped
and the listener goes on; even the rejection that it sends is best effort.  The receipt for a valid
intent is not: when its write fails, because the client has left meanwhile, the listener returns
that failure, and with it the socket is removed.

Three things can therefore end a listener that has announced its endpoint: its standard output, its
standard error, and a client that sends a valid intent and leaves before the receipt.

Main definitions:

* `TermInterop.Callback.StdoutFailed`, `TermInterop.Callback.Up` — a standard output that has
  failed, and an endpoint that is up;
* `TermInterop.Callback.Patient` — a step at which no client of a valid intent is lost;
* `TermInterop.Callback.patient`, `TermInterop.Callback.wellBehaved` — the system in which all steps
  are of this kind, and the one in which nothing but clients and the standard output fails.

Main results:

* `TermInterop.Callback.serveOne_fails`, `TermInterop.Callback.serve_ends` — **what ends the loop**;
* `TermInterop.Callback.bound_of_run` — which socket is bound;
* `TermInterop.Callback.patient_of_not_gone` — no client is lost while those of valid intents stay;
* `TermInterop.Callback.endpoint_stays_up` — **when an endpoint stays up**;
* `TermInterop.Callback.client_ends_listener` — a client that takes it down.
-/

import TermInterop.Handoff

set_option relaxedAutoImplicit false
set_option autoImplicit false

namespace TermInterop

namespace Callback

open Sockets (Event Net SocketCall Stream World readsOf writesOf opensOf openedBy)

/-! ### What ends the loop -/

/-- The standard output has failed: a line could not be written, or not be flushed. -/
def StdoutFailed (events : List Event) : Prop :=
  (∃ (bytes : Bytes) (failure : WriteFailure bytes), ⟨.print bytes, .error failure⟩ ∈ events) ∨
    ∃ message : String, ⟨.flush, .error message⟩ ∈ events

/-- The standard error has failed. -/
def StderrFailed (events : List Event) : Prop :=
  ∃ message : String, ⟨.eprint, .error message⟩ ∈ events

/-- **A client has left before its receipt**: after the calls so far, a write to it fails although a
valid intent was read from it. -/
structure Lost (b64 : Base64.CanonicalCodec) (json : CallbackJson) (endpoint : EndpointId)
    (before : List Event) (u : Stream) (e : Event) : Prop where
  accepted : ⟨.accept, .ok u⟩ ∈ before
  broken : BrokenOn u e
  request : ∃ intent, Carries json (readsOf u before) intent ∧ IsRequest b64 endpoint intent

section Turns

variable {b64 : Base64.CanonicalCodec} {json : CallbackJson} {listener : IntentListener}
  {events : List Event}

theorem StdoutFailed.mono {more : List Event} (h : StdoutFailed events)
    (hmem : ∀ e ∈ events, e ∈ more) : StdoutFailed more := by
  rcases h with ⟨bytes, failure, h⟩ | ⟨message, h⟩
  · exact Or.inl ⟨bytes, failure, hmem _ h⟩
  · exact Or.inr ⟨message, hmem _ h⟩

/-- A line that was not printed is a failure of the standard output. -/
theorem Handing.stdoutFailed {line : Bytes} {message : String}
    (h : Handing line events (some (.error message))) : StdoutFailed events := by
  cases h with
  | failed failure => exact Or.inl ⟨line, failure, List.mem_singleton_self _⟩
  | unflushed message => exact Or.inr ⟨message, List.mem_cons_of_mem _ (List.mem_singleton_self _)⟩

/-- The receipt that a line was handed on cannot be sent: a write has failed. -/
theorem respond_fails {incoming : IncomingIntent} {error : IntentError}
    (h : (respond incoming (.forwarded listener.endpoint)).Ends events (.error error)) :
    ∃ writes e after, events = writes ++ e :: after ∧ BrokenOn incoming.stream e ∧
      (∀ d ∈ writes, WriteOn incoming.stream d) := by
  obtain ⟨writes, r, closing, r₂, hwrites, hclosing, rfl, hr⟩ := Prog.finally_ends_iff.1 h
  obtain ⟨answer, rest, rfl, hrest⟩ := Prog.perform_ends_iff.1 hclosing
  obtain ⟨rfl, rfl⟩ := Prog.ret_ends_iff.1 hrest
  obtain rfl : r = .error error := hr.symm
  have hframe := writeFrame_writes (length_forwarded_le listener.endpoint) hwrites
  obtain ⟨e, he, hbroken⟩ := hframe.failed error rfl
  obtain ⟨before, after, rfl⟩ := List.append_of_mem he
  exact ⟨before, e, after ++ [⟨.close incoming.stream, answer⟩], by simp, hbroken,
    fun d hd => hframe.only d (List.mem_append_left _ hd)⟩

/-- **What ends one turn with a failure.** -/
theorem serveOne_fails {failure : ListenFailure}
    (h : (serveOne b64 json listener).Ends events (.error failure)) :
    StdoutFailed events ∨ StderrFailed events ∨ ∃ before u e after, events = before ++ e :: after ∧
      Lost b64 json listener.endpoint before u e := by
  rcases Prog.bind_ends_iff.1 h with ⟨error, hcaught, -⟩ | ⟨accepted, r, rest, hr, hrest, rfl⟩
  · obtain ⟨_, -, heq⟩ := Prog.caught_ends_iff.1 hcaught
    cases heq
  rw [Prog.ends_ok_iff, Prog.caught_returns_iff] at hr
  cases r with
  | error error =>
      -- a connection was dropped: only the complaint about it can fail
      refine Or.inr (Or.inl ?_)
      rcases Prog.bind_ends_iff.1 hrest with ⟨error, hcomplain, -⟩ | ⟨_, _, _, -, hret, -⟩
      · obtain ⟨answer, calls, rfl, hanswer⟩ := Prog.perform_ends_iff.1 hcomplain
        cases answer with
        | ok a => cases (Prog.ret_ends_iff.1 hanswer).2
        | error message =>
            exact ⟨message, List.mem_append_right _ List.mem_cons_self⟩
      · cases (Prog.ret_ends_iff.1 hret).2
  | ok incoming =>
      obtain ⟨reads, rfl, hreads, hcarries, hrequest⟩ := accept_returns hr
      rcases Prog.bind_ends_iff.1 hrest with ⟨error, hcaught, -⟩ | ⟨prints, r, writes, hp, hw, rfl⟩
      · obtain ⟨_, -, heq⟩ := Prog.caught_ends_iff.1 hcaught
        cases heq
      rw [Prog.ends_ok_iff, Prog.caught_returns_iff] at hp
      obtain ⟨r', hhanding, hdone⟩ := writeOutput_reaches hp
      obtain rfl := hdone r rfl
      cases r with
      | error message =>
          refine Or.inl (hhanding.stdoutFailed.mono fun e he => ?_)
          exact List.mem_append_right _ (List.mem_append_left _ he)
      | ok a =>
          -- the line was handed on: only the receipt can fail
          refine Or.inr (Or.inr ?_)
          rcases Prog.bind_ends_iff.1 hw with ⟨error, hrespond, -⟩ | ⟨_, _, _, -, hlast, -⟩
          · obtain ⟨r, hends, heq⟩ := Prog.mapError_ends_iff.1 hrespond
            obtain ⟨error', rfl⟩ : ∃ error', r = .error error' := by
              cases r with
              | ok a => cases heq
              | error error' => exact ⟨error', rfl⟩
            obtain ⟨sent, e, after, rfl, hbroken, hsent⟩ := respond_fails hends
            refine ⟨⟨.accept, .ok incoming.stream⟩ :: (reads ++ (prints ++ sent)), incoming.stream,
              e, after, by simp, List.mem_cons_self, hbroken, incoming.intent, ?_, hrequest⟩
            have hnone : readsOf incoming.stream sent = [] := by
              refine List.flatMap_eq_nil_iff.2 fun d hd => ?_
              obtain ⟨_, _, rfl⟩ := hsent d hd
              rfl
            rw [Sockets.readsOf_cons, Sockets.readsOf_append, Sockets.readsOf_append,
              (hhanding.streams _).1, hnone, List.append_nil, List.append_nil]
            exact hcarries
          · rcases Prog.bind_ends_iff.1 hlast with ⟨_, hok, -⟩ | ⟨_, _, _, -, hret, -⟩
            · cases (Prog.ofExcept_ends_iff.1 hok).2
            · cases (Prog.ret_ends_iff.1 hret).2

/-- **What ends the loop**, which serves one connection after the other and opens each once. -/
theorem serve_ends {fuel : ℕ} {r : Except ListenFailure Unit}
    (h : (serve b64 json listener false fuel).Ends events r) (hopens : (opensOf events).Nodup) :
    StdoutFailed events ∨ StderrFailed events ∨ ∃ before u e after, events = before ++ e :: after ∧
      Lost b64 json listener.endpoint before u e := by
  induction fuel generalizing events with
  | zero => exact absurd h Prog.not_unfinished_ends
  | succ fuel ih =>
      rcases Prog.bind_ends_iff.1 h with
        ⟨failure, hfails, -⟩ | ⟨turn, handed, rest, hturn, hrest, rfl⟩
      · exact serveOne_fails hfails
      · rw [Bool.and_false, if_neg Bool.false_ne_true] at hrest
        rw [Sockets.opensOf_append, List.nodup_append] at hopens
        obtain ⟨-, hnodup, hdisjoint⟩ := hopens
        rcases ih hrest hnodup with hout | ⟨message, herr⟩ | ⟨before, u, e, after, rfl, hlost⟩
        · exact Or.inl (hout.mono fun e he => List.mem_append_right turn he)
        · exact Or.inr (Or.inl ⟨message, List.mem_append_right turn herr⟩)
        · -- the connection of the lost client is a stranger to the earlier turns
          have hopened : u ∈ opensOf (before ++ e :: after) :=
            List.mem_filterMap.2 ⟨_, List.mem_append_left _ hlost.accepted, rfl⟩
          have hnot : u ∉ opensOf turn := fun hu => hdisjoint u hu u hopened rfl
          have hnone := ((serveOne_reaches hturn).1.delivered.strangers u hnot).1
          obtain ⟨intent, hcarries, hrequest⟩ := hlost.request
          refine Or.inr (Or.inr ⟨turn ++ before, u, e, after, by simp,
            List.mem_append_right _ hlost.accepted, hlost.broken, intent, ?_, hrequest⟩)
          rwa [Sockets.readsOf_append, hnone, List.nil_append]

end Turns

/-! ### Which socket is bound -/

/-- The socket that is bound after a call. -/
def boundAfter (bound : Option PathBuf) : Event → Option PathBuf
  | ⟨.bind path, .ok ()⟩ => some path
  | ⟨.removeFile path, .ok ()⟩ => if bound = some path then none else bound
  | _ => bound

/-- The calls that bind or remove a socket. -/
def SocketFileCall : SocketCall → Prop
  | .bind _ => True
  | .removeFile _ => True
  | _ => False

theorem SocketFileCall.listenerCall {op : SocketCall} (h : SocketFileCall op) :
    ListenerCall op := by
  cases op with
  | bind path => trivial
  | removeFile path => trivial
  | _ => cases h

theorem boundAfter_of_not {e : Event} (h : ¬ SocketFileCall e.1) (bound : Option PathBuf) :
    boundAfter bound e = bound := by
  obtain ⟨op, answer⟩ := e
  cases op with
  | bind path => exact absurd trivial h
  | removeFile path => exact absurd trivial h
  | _ => rfl

theorem foldl_boundAfter {events : List Event} (h : ∀ e ∈ events, ¬ SocketFileCall e.1)
    (bound : Option PathBuf) : events.foldl boundAfter bound = bound := by
  induction events with
  | nil => rfl
  | cons e events ih =>
      rw [List.foldl_cons, boundAfter_of_not (h e List.mem_cons_self)]
      exact ih fun d hd => h d (List.mem_cons_of_mem e hd)

section Bound

variable {P : Type} [DecidableEq P]

/-- **The calls say which socket is bound.** -/
theorem bound_of_run {labels : List (P × Event)} {w : World P}
    (h : (Sockets.system P).Run (World.init P) labels w) :
    w.bound = (labels.map Prod.snd).foldl boundAfter none := by
  have hinit : (World.init P).bound =
      (([] : List (P × Event)).map Prod.snd).foldl boundAfter none := rfl
  have hall : w.bound = (([] ++ labels).map Prod.snd).foldl boundAfter none := by
    refine h.history (P := fun past w => w.bound = (past.map Prod.snd).foldl boundAfter none) ?_ ?_
      hinit
    · intro past s t hsilent hpast
      cases hsilent with
      | _ => exact hpast
    · intro past s t label _ hstep hpast
      rw [List.map_append, List.foldl_append, ← hpast]
      rcases hstep with hperforms | hfails
      · cases hperforms with
        | _ => rfl
      · cases hfails with
        | _ => rfl
  exact hall

/-- The calls of a process that binds and removes nothing do not matter. -/
theorem foldl_boundAfter_project {p : P} {labels : List (P × Event)}
    (h : ∀ label ∈ labels, label.1 ≠ p → ¬ ListenerCall label.2.1) (bound : Option PathBuf) :
    (labels.map Prod.snd).foldl boundAfter bound =
      (Histories.project p labels).foldl boundAfter bound := by
  induction labels generalizing bound with
  | nil => rfl
  | cons label labels ih =>
      have hrest := ih fun other hother => h other (List.mem_cons_of_mem _ hother)
      by_cases hp : label.1 = p
      · rw [Histories.project, if_pos hp, List.map_cons, List.foldl_cons, List.foldl_cons, hrest]
      · rw [Histories.project, if_neg hp, List.map_cons, List.foldl_cons,
          boundAfter_of_not fun hfile => h label List.mem_cons_self hp hfile.listenerCall, hrest]

end Bound

theorem avoids_writeFrame (u : Stream) (payload : Bytes) :
    Avoids SocketFileCall (writeFrame u payload) := by
  refine avoids_of_forall fun events left h e he => ?_
  obtain ⟨_, _, rfl⟩ := (writeFrame_sent h).1 e he
  exact id

theorem avoids_dropStream {ε : Type} (u : Stream) :
    Avoids SocketFileCall (dropStream u : Net ε Unit) :=
  avoids_call (.close u) id

theorem avoids_writeOutput (line : Bytes) : Avoids SocketFileCall (writeOutput line) :=
  .bind (avoids_call (.print line) id) fun _ => .bind (avoids_ofExcept _) fun _ =>
    .bind (avoids_call .flush id) fun _ => avoids_ofExcept _

section Programs

variable (b64 : Base64.CanonicalCodec) (json : CallbackJson) (listener : IntentListener)

theorem avoids_acceptBody (u : Stream) :
    Avoids SocketFileCall (acceptBody b64 json listener u) := by
  refine .bind (avoids_of_forall fun events left h e he => ?_) fun intent => ?_
  · obtain ⟨_, _, rfl⟩ := readFrame_only h e he
    exact id
  · split_ifs
    · refine .bind (avoids_of_forall fun events left h => ?_) fun _ => ⟨fun _ => trivial⟩
      obtain ⟨y, hy⟩ := Prog.ignored_reaches h
      exact (avoids_writeFrame u _).forall_mem hy
    · exact .bind (avoids_ofExcept _) fun _ => ⟨fun _ => trivial⟩

theorem avoids_accept : Avoids SocketFileCall (accept b64 json listener) := by
  refine .bind (avoids_call .accept id) fun _ => .bind (avoids_ofExcept _) fun u => ?_
  refine avoids_of_forall fun events left h => ?_
  rcases Prog.onFailure_reaches h with ⟨y, hy⟩ | ⟨e₁, error, e₂, z, hfail, hclose, rfl⟩
  · exact (avoids_acceptBody b64 json listener u).forall_mem hy
  · exact List.forall_mem_append.2 ⟨(avoids_acceptBody b64 json listener u).forall_mem hfail,
      (avoids_dropStream u).forall_mem hclose⟩

theorem avoids_serveOne : Avoids SocketFileCall (serveOne b64 json listener) := by
  refine .bind (avoids_accept b64 json listener).caught fun accepted => ?_
  cases accepted with
  | error error =>
      refine .bind (.bind (avoids_call .eprint id) fun _ => avoids_ofExcept _) fun _ => ?_
      exact ⟨fun _ => trivial⟩
  | ok incoming =>
      refine .bind (avoids_writeOutput _).caught fun forwarded => ?_
      refine .bind (.mapError _ ?_) fun _ => .bind (avoids_ofExcept _) fun _ => ⟨fun _ => trivial⟩
      exact .finally_ (avoids_writeFrame _ _) (avoids_dropStream _)

/-- Serving connections neither binds nor removes a socket. -/
theorem avoids_announced (once : Bool) (fuel : ℕ) :
    Avoids SocketFileCall (announced b64 json listener once fuel) := by
  refine .bind (.mapError _ (avoids_writeOutput _)) fun _ => ?_
  induction fuel with
  | zero => exact ⟨fun _ => trivial⟩
  | succ fuel ih =>
      refine .bind (avoids_serveOne b64 json listener) fun handed => ?_
      split_ifs
      · exact ⟨fun _ => trivial⟩
      · exact ih

end Programs

/-! ### A listener that has announced its endpoint -/

/-- **How an endpoint is bound**, and by which calls. -/
theorem bind_returns_bound {root : PathBuf} {endpoint : EndpointId} {bound : IntentListener}
    {events : List Event} (h : (bind root endpoint).Returns events bound) :
    socketPath root endpoint = .ok bound.socketPath ∧
      events.foldl boundAfter none = some bound.socketPath := by
  obtain ⟨prepare, _, _, hprepare, hpath, rfl⟩ := Prog.bind_returns_iff.1 h
  obtain ⟨_, path, _, hsocket, hexists, rfl⟩ := Prog.bind_returns_iff.1 hpath
  obtain ⟨rfl, hok⟩ := Prog.ofExcept_returns_iff.1 hsocket
  obtain ⟨_, exists_, _, hcall, hrest, rfl⟩ := Prog.bind_returns_iff.1 hexists
  obtain rfl := Prog.call_returns_iff.1 hcall
  cases exists_ with
  | true => exact absurd hrest Prog.not_fail_returns
  | false =>
      obtain ⟨_, answer, _, hbind, hmode, rfl⟩ := Prog.bind_returns_iff.1 hrest
      obtain rfl := Prog.call_returns_iff.1 hbind
      obtain ⟨_, _, _, hio, hmode', rfl⟩ := Prog.bind_returns_iff.1 hmode
      obtain ⟨rfl, rfl⟩ := io_returns_iff.1 hio
      obtain ⟨_, mode, _, hcall', hlast, rfl⟩ := Prog.bind_returns_iff.1 hmode'
      obtain rfl := Prog.call_returns_iff.1 hcall'
      obtain ⟨_, _, _, hio', hret, rfl⟩ := Prog.bind_returns_iff.1 hlast
      obtain ⟨rfl, -⟩ := io_returns_iff.1 hio'
      obtain ⟨rfl, rfl⟩ := Prog.ret_returns_iff.1 hret
      have hquiet : Avoids SocketFileCall (prepareRuntimeRoot root) :=
        .bind (avoids_call (.createDirAll root) id) fun _ => .bind (avoids_ofExcept _) fun _ =>
          .bind (avoids_call (.setPermissions root 0o700) id) fun _ =>
            .bind (avoids_ofExcept _) fun _ => .bind (avoids_call (.symlinkMetadata root) id)
              fun _ => .bind (avoids_ofExcept _) fun _ => ⟨fun _ => Prog.Always.ensure⟩
      refine ⟨hok, ?_⟩
      rw [List.foldl_append, foldl_boundAfter (hquiet.forall_mem hprepare)]
      rfl

/-- Binding an endpoint flushes nothing. -/
theorem avoids_flush_bind (root : PathBuf) (endpoint : EndpointId) :
    Avoids (· = .flush) (bind root endpoint) := by
  refine .bind ?_ fun _ => .bind (avoids_ofExcept _) fun path =>
    .bind (avoids_call (.exists_ path) nofun) fun exists_ => ?_
  · exact .bind (avoids_call (.createDirAll root) nofun) fun _ => .bind (avoids_ofExcept _) fun _ =>
      .bind (avoids_call (.setPermissions root 0o700) nofun) fun _ =>
        .bind (avoids_ofExcept _) fun _ => .bind (avoids_call (.symlinkMetadata root) nofun)
          fun _ => .bind (avoids_ofExcept _) fun _ => ⟨fun _ => Prog.Always.ensure⟩
  · cases exists_ with
    | true => exact ⟨fun _ => trivial⟩
    | false =>
        exact .bind (avoids_call (.bind path) nofun) fun _ => .bind (avoids_ofExcept _) fun _ =>
          .bind (avoids_call (.setPermissions path 0o600) nofun) fun _ =>
            .bind (avoids_ofExcept _) fun _ => ⟨fun _ => trivial⟩

/-- **A listener that has flushed its announcement** has bound its socket, and is serving or has
ended. -/
theorem listenForIntents_announced {b64 : Base64.CanonicalCodec} {json : CallbackJson}
    {xdgRuntimeDir : Option PathBuf} {endpoint : EndpointId} {once : Bool} {fuel : ℕ}
    {events : List Event} {left : Net ListenFailure Unit}
    (h : (listenForIntents b64 json xdgRuntimeDir endpoint.asStr once fuel).Reaches events left)
    (hflush : ⟨.flush, .ok ()⟩ ∈ events) :
    ∃ root bound setup calls, runtimeRoot xdgRuntimeDir = .ok root ∧
      (bind root endpoint).Returns setup bound ∧
      ((∃ y, (announced b64 json bound once fuel).Reaches calls y ∧ events = setup ++ calls ∧
          left = y.finally_ (removeSocket bound)) ∨
        ∃ r cleanup, (announced b64 json bound once fuel).Ends calls r ∧
          events = setup ++ (calls ++ cleanup)) := by
  rcases Prog.bind_reaches_iff.1 h with ⟨z, hz, -⟩ | ⟨_, parsed, rest, hparse, hrest, rfl⟩
  · rw [(Prog.ofExcept_reaches hz).1] at hflush
    cases hflush
  obtain ⟨rfl, hok⟩ := Prog.ofExcept_returns_iff.1 hparse
  rw [EndpointId.parse_eq_ok_iff.2 rfl] at hok
  obtain rfl : endpoint = parsed := Except.ok.inj hok
  rw [List.nil_append] at hflush ⊢
  rcases Prog.bind_reaches_iff.1 hrest with ⟨z, hz, -⟩ | ⟨_, root, rest, hroot, hbound, rfl⟩
  · rw [(Prog.ofExcept_reaches hz).1] at hflush
    cases hflush
  obtain ⟨rfl, hresult⟩ := Prog.ofExcept_returns_iff.1 hroot
  have hroot' : runtimeRoot xdgRuntimeDir = .ok root := by
    generalize runtimeRoot xdgRuntimeDir = result at hresult
    cases result with
    | ok root' => exact congrArg Except.ok (Except.ok.inj hresult)
    | error error => cases hresult
  rw [List.nil_append] at hflush ⊢
  rcases Prog.bind_reaches_iff.1 hbound with ⟨z, hz, -⟩ | ⟨setup, bound, rest, hbind, hlast, rfl⟩
  · obtain ⟨y, hy⟩ := Prog.mapError_reaches hz
    exact absurd rfl ((avoids_flush_bind root endpoint).forall_mem hy _ hflush)
  obtain ⟨q, hends, hq⟩ := Prog.mapError_ends_iff.1 (Prog.ends_ok_iff.2 hbind)
  cases q with
  | error error => cases hq
  | ok a =>
      obtain rfl : bound = a := Except.ok.inj hq
      obtain rfl := bind_returns hends
      refine ⟨root, bound, setup, ?_⟩
      rcases Prog.finally_reaches hlast with ⟨y, hy, hleft⟩ | ⟨e₁, r, e₂, z, hr, -, rfl, -⟩
      · exact ⟨rest, hroot', hends, Or.inl ⟨y, hy, rfl, hleft⟩⟩
      · exact ⟨e₁, hroot', hends, Or.inr ⟨r, e₂, hr, rfl⟩⟩

/-- The loop was left: the announcement could not be written, or the loop has ended. -/
theorem announced_ends {b64 : Base64.CanonicalCodec} {json : CallbackJson} {bound : IntentListener}
    {fuel : ℕ} {calls : List Event} {r : Except ListenFailure Unit}
    (h : (announced b64 json bound false fuel).Ends calls r) (hopens : (opensOf calls).Nodup) :
    StdoutFailed calls ∨ StderrFailed calls ∨ ∃ before u e after, calls = before ++ e :: after ∧
      Lost b64 json bound.endpoint before u e := by
  rcases Prog.bind_ends_iff.1 h with ⟨error, hprint, -⟩ | ⟨prints, _, rest, hprint, hserve, rfl⟩
  · obtain ⟨r, hends, heq⟩ := Prog.mapError_ends_iff.1 hprint
    cases r with
    | ok a => cases heq
    | error message =>
        obtain ⟨r', hhanding, hdone⟩ := writeOutput_reaches hends
        obtain rfl := hdone (.error message) rfl
        exact Or.inl hhanding.stdoutFailed
  · obtain ⟨r, hends, -⟩ := Prog.mapError_ends_iff.1 hprint
    obtain ⟨r', hhanding, -⟩ := writeOutput_reaches hends
    rw [Sockets.opensOf_append] at hopens
    rcases serve_ends hserve (List.nodup_append.1 hopens).2.1 with
      hout | ⟨message, herr⟩ | ⟨before, u, e, after, rfl, hlost⟩
    · exact Or.inl (hout.mono fun e he => List.mem_append_right prints he)
    · exact Or.inr (Or.inl ⟨message, List.mem_append_right prints herr⟩)
    · obtain ⟨intent, hcarries, hrequest⟩ := hlost.request
      refine Or.inr (Or.inr ⟨prints ++ before, u, e, after, by simp,
        List.mem_append_right _ hlost.accepted, hlost.broken, intent, ?_, hrequest⟩)
      rwa [Sockets.readsOf_append, (hhanding.streams u).1, List.nil_append]

section Up

variable (b64 : Base64.CanonicalCodec) (json : CallbackJson) (xdgRuntimeDir : Option PathBuf)
  (endpoint : EndpointId) {ι : Type} [DecidableEq ι]

/-- **The endpoint is up**: the listener goes on, and its socket is bound. -/
structure Up (left : Net ListenFailure Unit) (w : World (Party ι)) : Prop where
  running : ∀ r, left ≠ Prog.ofExcept r
  bound : ∃ root path, runtimeRoot xdgRuntimeDir = .ok root ∧
    socketPath root endpoint = .ok path ∧ w.bound = some path

/-- **A step at which no client is lost**: no receipt fails on a connection whose client has sent a
valid intent, and no complaint about a dropped connection fails. -/
structure Patient (w : World (Party ι)) (label : Party ι × Event) : Prop where
  receipt : ∀ c bytes message,
    label = (.listener, ⟨.write (Sockets.serverEnd c) bytes, .error message⟩) →
      ∀ intent, Sent json w c intent → ¬ IsRequest b64 endpoint intent
  complaint : ∀ message, label ≠ (.listener, ⟨.eprint, .error message⟩)

/-- The system in which no client is lost. -/
def patient (ι : Type) [DecidableEq ι] : Lts (World (Party ι)) (Party ι × Event) where
  silent := (Sockets.system (Party ι)).silent
  step w label w' := (Sockets.system (Party ι)).step w label w' ∧ Patient b64 json endpoint w label

/-- The system in which no call fails but a write to a client that has left. -/
def wellBehaved (ι : Type) [DecidableEq ι] : Lts (World (Party ι)) (Party ι × Event) where
  silent := (Sockets.system (Party ι)).silent
  step w label w' := Sockets.Performs w label w' ∨ Sockets.Fails w label w' ∧
    ∃ p u bytes message, label = (p, ⟨.write u bytes, .error message⟩) ∧ w.gone u.peer

variable {b64 json xdgRuntimeDir endpoint} {labels : List (Party ι × Event)}
  {w : World (Party ι)}

/-- Where nothing fails but writes to clients that have left, a step loses no client as long as
those that have sent a valid intent are still there. -/
theorem patient_of_not_gone {w' : World (Party ι)} {label : Party ι × Event}
    (h : (wellBehaved ι).step w label w')
    (hthere : ∀ c intent, Sent json w c intent → IsRequest b64 endpoint intent →
      ¬ w.gone (Sockets.clientEnd c)) : Patient b64 json endpoint w label := by
  rcases h with hperforms | ⟨-, p, u, bytes, message, rfl, hgone⟩
  · refine ⟨?_, ?_⟩
    · rintro c bytes message rfl
      cases hperforms
    · rintro message rfl
      cases hperforms
  · refine ⟨?_, nofun⟩
    rintro c bytes message heq intent hsent hrequest
    cases heq
    exact hthere c intent hsent hrequest hgone

/-- Where nothing fails but writes, the standard output does not. -/
theorem not_stdoutFailed (h : (wellBehaved ι).Run (World.init (Party ι)) labels w) (p : Party ι) :
    ¬ StdoutFailed (Histories.project p labels) := by
  have hnever := h.forall_mem_labels (I := fun _ => True)
    (Q := fun label => (∀ bytes failure, label ≠ (p, ⟨.print bytes, .error failure⟩)) ∧
      ∀ message, label ≠ (p, ⟨.flush, .error message⟩))
    (fun _ _ => trivial) (fun _ hstep _ => ⟨trivial, ?_⟩) trivial
  · rintro (⟨bytes, failure, hmem⟩ | ⟨message, hmem⟩)
    · exact (hnever _ (Histories.mem_project_iff.1 hmem)).1 bytes failure rfl
    · exact (hnever _ (Histories.mem_project_iff.1 hmem)).2 message rfl
  · rcases hstep with hperforms | ⟨-, _, _, _, _, rfl, -⟩
    · constructor
      · rintro bytes failure rfl
        cases hperforms
      · rintro message rfl
        cases hperforms
    · exact ⟨nofun, nofun⟩

/-- A listener with a clean-up to do has not ended. -/
theorem finally_removeSocket_ne (y : Net ListenFailure Unit) (bound : IntentListener)
    (r : Except ListenFailure Unit) : y.finally_ (removeSocket bound) ≠ Prog.ofExcept r := by
  cases y <;> cases r <;> exact nofun

/-- In such a run no client of a valid intent is lost. -/
theorem not_lost (h : (patient b64 json endpoint ι).Run (World.init (Party ι)) labels w)
    {before after : List Event} {u : Stream} {e : Event}
    (hlabels : Histories.project .listener labels = before ++ e :: after) :
    ¬ Lost b64 json endpoint before u e := by
  rintro ⟨haccepted, ⟨bytes, hne, hbroken⟩, intent, ⟨payload, hlength, hparse, hreads⟩, hrequest⟩
  obtain ⟨l₁, l₂, rfl, rfl, -⟩ := Histories.exists_of_project_eq_append hlabels
  obtain ⟨s, hbefore, hrest⟩ := Lts.run_append_iff.1 h
  obtain ⟨t, t', hquiet, ⟨hstep, hpatient⟩, -⟩ := Lts.run_cons_iff.1 hrest
  have hrun : (Sockets.system (Party ι)).Run (World.init (Party ι)) l₁ t := by
    have hmore := hbefore.append hquiet
    rw [List.append_nil] at hmore
    exact hmore.mono (fun hsilent => hsilent) fun hboth => hboth.1
  -- what was read from the connection was sent by its client
  obtain ⟨c, side⟩ := u
  obtain rfl : side = .server := (Sockets.Handles.of_run hrun).servers _ _ haccepted
  obtain ⟨more, hmore⟩ := (Sockets.Streams.of_run hrun).reads_isPrefix .listener ⟨c, .server⟩
  rw [hreads] at hmore
  have hsent : Sent json t c intent := ⟨payload, more, hlength, hparse, hmore.symm⟩
  rcases hbroken with ⟨message, rfl⟩ | ⟨count, hzero, rfl⟩
  · exact hpatient.receipt c bytes message rfl intent hsent hrequest
  · rcases hstep with hperforms | hfails
    · cases hperforms with
      | write _ _ hpositive => exact hne (hpositive (Fin.ext hzero))
    · cases hfails

end Up

/-! ### Two clients -/

section Clients

variable (root path : PathBuf) (endpoint : EndpointId) (intent : OpenIntentV1)

/-- A client connects and leaves without a word. -/
def visitCalls : List Event :=
  [⟨.accept, .ok (Sockets.serverEnd 0)⟩,
    ⟨.read (Sockets.serverEnd 0) 4, .ok ⟨[], Nat.zero_le 4⟩⟩,
    ⟨.close (Sockets.serverEnd 0), ()⟩, ⟨.eprint, .ok ()⟩]

/-- A client sends a valid intent, and leaves before its receipt. -/
def departureCalls : List Event :=
  (serveCalls path endpoint intent).take 5 ++
    [⟨.write (Sockets.serverEnd 0) (toBeBytes (IntentReceiptV1.forwarded endpoint).toVec.length),
        .error "Broken pipe (os error 32)"⟩,
      ⟨.close (Sockets.serverEnd 0), ()⟩, ⟨.removeFile path, .ok ()⟩]

/-- What a listener does in this case, with no dispatcher around. -/
def departureLabels : List (Party Empty × Event) :=
  (setupCalls root path endpoint ++ departureCalls path endpoint intent).map (Prod.mk .listener)

/-- The system can make these calls, and only the write fails. -/
theorem departure_run : ∃ w, (wellBehaved Empty).Run (World.init (Party Empty))
    (departureLabels root path endpoint intent) w := by
  refine ⟨_, .step (Or.inl (.createDirAll _ _ _)) <| .step (Or.inl (.setPermissions _ _ _ _)) <|
    .step (Or.inl (.symlinkMetadata _ _ _ _)) <| .step (Or.inl (.exists_ _ ?_)) <|
    .step (Or.inl (.bind _ _ rfl)) <| .step (Or.inl (.setPermissions _ _ _ _)) <|
    .step (Or.inl (.print _ _ _)) <| .step (Or.inl (.flush _ _)) <|
    .silent (.connect (c := 0) rfl ?_) <| .silent (.send (c := 0) (frame intent.toVec) ?_ ?_ ?_) <|
    .silent (.leave 0 ?_) <| .step (Or.inl (.accept _ rfl)) <|
    .step (Or.inl (.read ?_ ?_ ?_)) <| .step (Or.inl (.read ?_ ?_ ?_)) <|
    .step (Or.inl (.print _ _ _)) <| .step (Or.inl (.flush _ _)) <|
    .step (Or.inr ⟨.write _ _ _ _ _, _, _, _, _, rfl, ?_⟩) <|
    .step (Or.inl (.close ?_)) <| .step (Or.inl (.removeFile _ _ _)) <| .nil _⟩
  all_goals
    have hheader : ∀ n, (toBeBytes n).length = 4 ∧ (toBeBytes n).take 4 = toBeBytes n ∧
      toBeBytes n ≠ [] := fun n => ⟨rfl, rfl, List.cons_ne_nil _ _⟩
    simp [World.init, Sockets.clientEnd, Sockets.serverEnd, Function.update, Stream.peer,
      Sockets.Side.other, frame, hheader]

/-- A listener can be visited. -/
theorem visit_run (b64 : Base64.CanonicalCodec) (json : CallbackJson) :
    ∃ w, (patient b64 json endpoint Empty).Run (World.init (Party Empty))
      ((setupCalls root path endpoint ++ visitCalls).map (Prod.mk .listener)) w := by
  have hpatient : ∀ {w : World (Party Empty)} {op : SocketCall} {answer : op.Answer},
      (∀ bytes message u, (⟨op, answer⟩ : Event) ≠ ⟨.write u bytes, .error message⟩) →
        (∀ message, (⟨op, answer⟩ : Event) ≠ ⟨.eprint, .error message⟩) →
          Patient b64 json endpoint w (.listener, ⟨op, answer⟩) := by
    intro w op answer hwrite hprint
    refine ⟨fun c bytes message heq => ?_, fun message heq => ?_⟩
    · exact absurd (Prod.mk.inj heq).2 (hwrite bytes message _)
    · exact hprint message (Prod.mk.inj heq).2
  refine ⟨_, .step ⟨Or.inl (.createDirAll _ _ _), hpatient nofun nofun⟩ <|
    .step ⟨Or.inl (.setPermissions _ _ _ _), hpatient nofun nofun⟩ <|
    .step ⟨Or.inl (.symlinkMetadata _ _ _ _), hpatient nofun nofun⟩ <|
    .step ⟨Or.inl (.exists_ _ ?_), hpatient nofun nofun⟩ <|
    .step ⟨Or.inl (.bind _ _ rfl), hpatient nofun nofun⟩ <|
    .step ⟨Or.inl (.setPermissions _ _ _ _), hpatient nofun nofun⟩ <|
    .step ⟨Or.inl (.print _ _ _), hpatient nofun nofun⟩ <|
    .step ⟨Or.inl (.flush _ _), hpatient nofun nofun⟩ <|
    .silent (.connect (c := 0) rfl ?_) <| .silent (.finish 0 ?_) <| .silent (.leave 0 ?_) <|
    .step ⟨Or.inl (.accept _ rfl), hpatient nofun nofun⟩ <|
    .step ⟨Or.inl (.read ?_ ?_ ?_), hpatient nofun nofun⟩ <|
    .step ⟨Or.inl (.close ?_), hpatient nofun nofun⟩ <|
    .step ⟨Or.inl (.eprint _ _), hpatient nofun nofun⟩ <| .nil _⟩
  all_goals
    simp [World.init, Sockets.clientEnd, Sockets.serverEnd, Function.update, Stream.peer,
      Sockets.Side.other]

variable {root path endpoint intent} {b64 : Base64.CanonicalCodec} {json : CallbackJson}
  {xdgRuntimeDir : Option PathBuf} {fuel : ℕ}

/-- A client that leaves in the middle of a header is dropped, and the loop goes on. -/
theorem visit_serve (listener : IntentListener) :
    (serve b64 json listener false (fuel + 1)).Reaches visitCalls
      (serve b64 json listener false fuel) := by
  have hread : (acceptBody b64 json listener (Sockets.serverEnd 0)).Ends
      [⟨.read (Sockets.serverEnd 0) 4, .ok ⟨[], Nat.zero_le 4⟩⟩] (.error .truncatedFrame) := by
    refine Prog.bind_ends_iff.2 (Or.inl ⟨_, Prog.bind_ends_iff.2 (Or.inl ⟨_, ?_, rfl⟩), rfl⟩)
    refine Prog.bind_ends_iff.2 (Or.inr ⟨[_], .ok ⟨[], Nat.zero_le 4⟩, [],
      Prog.call_returns_iff.2 rfl, ?_, rfl⟩)
    refine Prog.bind_ends_iff.2 (Or.inr ⟨[], _, [], io_returns_iff.2 ⟨rfl, rfl⟩, ?_, rfl⟩)
    rw [if_pos rfl]
    exact Prog.fail_ends_iff.2 ⟨rfl, rfl⟩
  have haccept : (accept b64 json listener).Ends (visitCalls.take 3) (.error .truncatedFrame) := by
    refine Prog.bind_ends_iff.2 (Or.inr ⟨[_], .ok (Sockets.serverEnd 0), _,
      Prog.call_returns_iff.2 rfl, ?_, rfl⟩)
    refine Prog.bind_ends_iff.2 (Or.inr ⟨[], _, _, io_returns_iff.2 ⟨rfl, rfl⟩, ?_, rfl⟩)
    exact Prog.onFailure_ends_iff.2 (Or.inr ⟨_, _, _, .ok (), hread, Prog.Reaches.perform
      (Prog.Reaches.here _), rfl, rfl⟩)
  have hturn : (serveOne b64 json listener).Returns visitCalls false := by
    refine Prog.bind_returns_iff.2 ⟨_, .error .truncatedFrame, [⟨.eprint, .ok ()⟩],
      Prog.caught_returns_iff.2 haccept, ?_, rfl⟩
    exact Prog.Reaches.perform (Prog.Reaches.here _)
  exact Prog.bind_reaches_iff.2 (Or.inr ⟨_, false, [], hturn, Prog.Reaches.here _,
    (List.append_nil _).symm⟩)

/-- A write that fails ends the frame. -/
theorem writeFrame_ends_broken {u : Stream} {payload : Bytes} (message : String)
    (hlength : payload.length ≤ MAX_FRAME_BYTES) :
    (writeFrame u payload).Ends [⟨.write u (toBeBytes payload.length), .error message⟩]
      (.error (.io message)) := by
  rw [writeFrame_of_le hlength]
  exact Prog.bind_ends_iff.2 (Or.inl ⟨_, Prog.Reaches.perform (Prog.Reaches.here _), rfl⟩)

/-- **The failure of a receipt ends the listener.** -/
theorem departure_listener (hroot : runtimeRoot xdgRuntimeDir = .ok root)
    (hpath : socketPath root endpoint = .ok path) (hrequest : IsRequest b64 endpoint intent)
    (hlength : intent.toVec.length ≤ MAX_FRAME_BYTES) :
    (listenForIntents b64 json xdgRuntimeDir endpoint.asStr false (fuel + 1)).Ends
      (setupCalls root path endpoint ++ departureCalls path endpoint intent)
      (.error (.app (.intent (.io "Broken pipe (os error 32)")))) := by
  have hwrite := writeFrame_ends_broken (u := Sockets.serverEnd 0) "Broken pipe (os error 32)"
    (length_forwarded_le endpoint)
  have hrespond : (respond ⟨intent, Sockets.serverEnd 0⟩ (IntentReceiptV1.forwarded endpoint)).Ends
      (((departureCalls path endpoint intent).drop 5).take 2)
      (.error (.io "Broken pipe (os error 32)")) :=
    Prog.finally_ends_iff.2 ⟨_, .error _, [_], .ok (), hwrite,
      Prog.Reaches.perform (Prog.Reaches.here _), rfl, rfl⟩
  have hturn : (serveOne b64 json ⟨path, endpoint⟩).Ends
      ((departureCalls path endpoint intent).take 7)
      (.error (.app (.intent (.io "Broken pipe (os error 32)")))) := by
    refine Prog.bind_ends_iff.2 (Or.inr ⟨_, .ok ⟨intent, Sockets.serverEnd 0⟩, _,
      Prog.caught_returns_iff.2 (accept_returns_serve path hrequest hlength), ?_, rfl⟩)
    refine Prog.bind_ends_iff.2 (Or.inr ⟨_, .ok (), _,
      Prog.caught_returns_iff.2 (writeOutput_returns_once _), ?_, rfl⟩)
    exact Prog.bind_ends_iff.2 (Or.inl ⟨_, Prog.mapError_ends_iff.2 ⟨_, hrespond, rfl⟩, rfl⟩)
  have hloop : (serve b64 json ⟨path, endpoint⟩ false (fuel + 1)).Ends
      ((departureCalls path endpoint intent).take 7)
      (.error (.app (.intent (.io "Broken pipe (os error 32)")))) :=
    Prog.bind_ends_iff.2 (Or.inl ⟨_, hturn, rfl⟩)
  exact listen_ends hroot hpath hloop

end Clients

/-- **An endpoint stays up** as long as no client is lost.  In every run of a listener that is not
told to stop after one intent, with any number of dispatchers and whoever else connects, sends what
they like and leaves whenever they like: once the announcement is flushed, the listener goes on with
its socket bound, unless its standard output has failed. -/
theorem endpoint_stays_up (b64 : Base64.CanonicalCodec) (json : CallbackJson)
    (xdgRuntimeDir : Option PathBuf) (endpoint : EndpointId) (fuel : ℕ) {ι : Type} [DecidableEq ι]
    (requests : ι → Request) (labels : List (Party ι × Event)) (w : World (Party ι))
    (left : Net ListenFailure Unit)
    (h : (patient b64 json endpoint ι).Run (World.init (Party ι)) labels w)
    (hlistener : (listenForIntents b64 json xdgRuntimeDir endpoint.asStr false fuel).Reaches
      (Histories.project .listener labels) left)
    (hdispatchers : ∀ d, ∃ rest, ((requests d).program json).Reaches
      (Histories.project (.dispatcher d) labels) rest)
    (hannounced : ⟨.flush, .ok ()⟩ ∈ Histories.project .listener labels) :
    StdoutFailed (Histories.project .listener labels) ∨ Up xdgRuntimeDir endpoint left w := by
  have hrun : (Sockets.system (Party ι)).Run (World.init (Party ι)) labels w :=
    h.mono (fun hsilent => hsilent) fun hboth => hboth.1
  have hopens := (Sockets.Handles.of_run hrun).opens .listener
  obtain ⟨root, bound, setup, calls, hroot, hbind, hcases⟩ :=
    listenForIntents_announced hlistener hannounced
  obtain ⟨hpath, hsetup⟩ := bind_returns_bound hbind
  rcases hcases with ⟨y, hy, hlabels, rfl⟩ | ⟨r, cleanup, hends, hlabels⟩
  · refine Or.inr ⟨finally_removeSocket_ne y bound, root, bound.socketPath, hroot, hpath, ?_⟩
    have hothers : ∀ label ∈ labels, label.1 ≠ .listener → ¬ ListenerCall label.2.1 := by
      rintro ⟨p, e⟩ hmem hp
      cases p with
      | listener => exact absurd rfl hp
      | dispatcher d =>
          obtain ⟨rest, hrest⟩ := hdispatchers d
          exact (avoids_dispatch _ _ _).forall_mem hrest e (Histories.mem_project_iff.2 hmem)
    have hcalls := (avoids_announced b64 json bound false fuel).forall_mem hy
    rw [bound_of_run hrun, foldl_boundAfter_project hothers, hlabels, List.foldl_append, hsetup,
      foldl_boundAfter hcalls]
  · left
    have hendpoint := bind_returns hbind
    rw [hlabels, Sockets.opensOf_append, Sockets.opensOf_append] at hopens
    have hnodup := (List.nodup_append.1 (List.nodup_append.1 hopens).2.1).1
    have hmem : ∀ e ∈ calls, e ∈ Histories.project .listener labels := by
      intro e he
      rw [hlabels]
      exact List.mem_append_right _ (List.mem_append_left _ he)
    rcases announced_ends hends hnodup with
      hout | ⟨message, herr⟩ | ⟨before, u, e, after, rfl, hlost⟩
    · exact hout.mono hmem
    · -- the complaint cannot have failed
      refine absurd ?_ (not_not.2 (Histories.mem_project_iff.1 (hmem _ herr)))
      have hnever := h.forall_mem_labels (I := fun _ => True)
        (Q := fun label => label ≠ (.listener, ⟨.eprint, .error message⟩))
        (fun _ _ => trivial) (fun _ hstep _ => ⟨trivial, hstep.2.complaint message⟩) trivial
      exact fun hlabel => hnever _ hlabel rfl
    · -- no client was lost
      obtain ⟨intent, hcarries, hrequest⟩ := hlost.request
      have hnone := (Idle.streams ((alwaysIdle_bind root endpoint []).forall_mem hbind) u).1
      refine absurd ⟨List.mem_append_right setup hlost.accepted, hlost.broken, intent, ?_,
        hendpoint ▸ hrequest⟩ (not_lost h (by
          rw [hlabels]; simp : _ = (setup ++ before) ++ _ :: (after ++ cleanup)))
      rwa [Sockets.readsOf_append, hnone, List.nil_append]

/-- A listener under `/run` that has been visited is up. -/
theorem endpoint_stays_up_visited :
    ∃ path w left, (patient Base64.urlSafeNoPad parsedJson.callbackJson sampleEndpoint Empty).Run
        (World.init (Party Empty))
        ((setupCalls (Text.asBytes "/run/terminal-interop/intent-v1") path sampleEndpoint ++
          visitCalls).map (Prod.mk .listener)) w ∧
      Up (some (Text.asBytes "/run")) sampleEndpoint left w := by
  obtain ⟨path, hpath⟩ : ∃ path, socketPath (Text.asBytes "/run/terminal-interop/intent-v1")
      sampleEndpoint = .ok path := ⟨_, rfl⟩
  obtain ⟨w, hrun⟩ := visit_run (Text.asBytes "/run/terminal-interop/intent-v1") path sampleEndpoint
    Base64.urlSafeNoPad parsedJson.callbackJson
  have hproject := project_map (Party.listener : Party Empty) .listener
    (setupCalls (Text.asBytes "/run/terminal-interop/intent-v1") path sampleEndpoint ++ visitCalls)
  rw [if_pos rfl] at hproject
  have hlisten :
      (listenForIntents Base64.urlSafeNoPad parsedJson.callbackJson (some (Text.asBytes "/run"))
      sampleEndpoint.asStr false 1).Reaches _ _ := listen_reaches rfl hpath (visit_serve _)
  have hup := endpoint_stays_up Base64.urlSafeNoPad parsedJson.callbackJson
    (some (Text.asBytes "/run"))
    sampleEndpoint 1 (fun d : Empty => d.elim) _ w _ hrun (by rw [hproject]; exact hlisten) nofun
    (by rw [hproject]; simp [setupCalls])
  refine ⟨path, w, _, hrun, hup.resolve_left ?_⟩
  rw [hproject]
  rintro (⟨bytes, failure, hmem⟩ | ⟨message, hmem⟩)
  · simp only [setupCalls, visitCalls, List.cons_append, List.nil_append, List.mem_cons] at hmem
    rcases hmem with h | h | h | h | h | h | h | h | h | h | h | h | h <;> cases h
  · simp only [setupCalls, visitCalls, List.cons_append, List.nil_append, List.mem_cons] at hmem
    rcases hmem with h | h | h | h | h | h | h | h | h | h | h | h | h <;> cases h

/-- **A client that takes the endpoint down**: it sends the intent for `/tmp/a` and leaves.  Nothing
fails but the write of its receipt, and afterwards the endpoint is not up. -/
theorem client_ends_listener :
    ∃ path w left, (wellBehaved Empty).Run (World.init (Party Empty))
        (departureLabels (Text.asBytes "/run/terminal-interop/intent-v1") path sampleEndpoint
          (OpenIntentV1.ofTarget Base64.urlSafeNoPad sampleEndpoint (Text.asBytes "/tmp/a"))) w ∧
      (listenForIntents Base64.urlSafeNoPad parsedJson.callbackJson (some (Text.asBytes "/run"))
        sampleEndpoint.asStr false 1).Reaches (Histories.project .listener
          (departureLabels (Text.asBytes "/run/terminal-interop/intent-v1") path sampleEndpoint
            (OpenIntentV1.ofTarget Base64.urlSafeNoPad sampleEndpoint (Text.asBytes "/tmp/a"))))
          left ∧
      ⟨.flush, .ok ()⟩ ∈ Histories.project .listener
        (departureLabels (Text.asBytes "/run/terminal-interop/intent-v1") path sampleEndpoint
          (OpenIntentV1.ofTarget Base64.urlSafeNoPad sampleEndpoint (Text.asBytes "/tmp/a"))) ∧
      ¬ (StdoutFailed (Histories.project .listener
          (departureLabels (Text.asBytes "/run/terminal-interop/intent-v1") path sampleEndpoint
            (OpenIntentV1.ofTarget Base64.urlSafeNoPad sampleEndpoint (Text.asBytes "/tmp/a")))) ∨
        Up (some (Text.asBytes "/run")) sampleEndpoint left w) := by
  have hrequest : IsRequest Base64.urlSafeNoPad sampleEndpoint
      (OpenIntentV1.ofTarget Base64.urlSafeNoPad sampleEndpoint (Text.asBytes "/tmp/a")) := by
    refine ⟨rfl, Text.asBytes "/tmp/a", OpenIntentV1.path_ofTarget _ ?_⟩
    exact ⟨by decide, by decide, by decide, by decide⟩
  obtain ⟨target, htarget⟩ := hrequest.2
  have hlength := OpenIntentV1.length_toVec_le
    (OpenIntentV1.validatePortable_of_path Base64.urlSafeNoPad htarget)
  obtain ⟨path, hpath⟩ : ∃ path, socketPath (Text.asBytes "/run/terminal-interop/intent-v1")
      sampleEndpoint = .ok path := ⟨_, rfl⟩
  obtain ⟨w, hrun⟩ := departure_run (Text.asBytes "/run/terminal-interop/intent-v1") path
    sampleEndpoint
    (OpenIntentV1.ofTarget Base64.urlSafeNoPad sampleEndpoint (Text.asBytes "/tmp/a"))
  have hproject := project_map (Party.listener : Party Empty) .listener
    (setupCalls (Text.asBytes "/run/terminal-interop/intent-v1") path sampleEndpoint ++
      departureCalls path sampleEndpoint
        (OpenIntentV1.ofTarget Base64.urlSafeNoPad sampleEndpoint (Text.asBytes "/tmp/a")))
  rw [if_pos rfl] at hproject
  have hends : (listenForIntents Base64.urlSafeNoPad parsedJson.callbackJson
      (some (Text.asBytes "/run"))
      sampleEndpoint.asStr false 1).Ends _ _ := departure_listener rfl hpath hrequest hlength
  refine ⟨path, w, _, hrun, by rw [departureLabels, hproject]; exact hends, ?_, ?_⟩
  · rw [departureLabels, hproject]
    simp [setupCalls]
  · rintro (hout | hup)
    · exact not_stdoutFailed hrun .listener hout
    · exact hup.running _ rfl

end Callback

end TermInterop
