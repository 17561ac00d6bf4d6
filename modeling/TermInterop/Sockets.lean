/-
Local sockets: processes that talk over private byte streams.

A process binds a socket, and others connect to it.  A connection is two byte streams, one in each
direction, with a handle at either end.  Only the process that opened a handle uses it; nothing is
lost, duplicated or reordered.  Whoever reads gets the bytes that the other end has sent in pieces
of any size, and whoever writes may see only a part of the bytes taken.  Any call may also fail.

The calls of all processes are the labels of one system.  Its silent steps are what everybody else
does: others connect, send what they like and leave whenever they like, and a process that holds
the client end of a connection may be gone at any time too.  What a process prints is buffered,
and reaches its reader at the latest when it is flushed.

Main definitions:

* `Sockets.SocketCall` — the calls;
* `Sockets.World`, `Sockets.system` — the state of all connections, and how it changes;
* `Sockets.readsOf`, `Sockets.writesOf`, `Sockets.printedOf` — what a process has read, written and
  printed by its calls.

Main results:

* `Sockets.Streams.of_run` — **connections are private reliable streams**: what a process has read
  from a handle is what was sent to it, and what it has written is what was sent from it;
* `Sockets.Output.of_run` — **what was flushed has been seen**.
-/

import TermInterop.Calls
import TermInterop.Histories

set_option relaxedAutoImplicit false
set_option autoImplicit false

namespace Sockets

open TermInterop (Bytes PathBuf WriteFailure acceptedBytes)
open Histories (project)

/-! ### Handles -/

/-- The two ends of a connection. -/
inductive Side
  | client
  | server
  deriving DecidableEq

/-- A handle: one end of a numbered connection. -/
structure Stream where
  link : ℕ
  side : Side
  deriving DecidableEq

def Side.other : Side → Side
  | client => server
  | server => client

/-- The other end. -/
def Stream.peer (u : Stream) : Stream := ⟨u.link, u.side.other⟩

@[simp] theorem Stream.peer_peer (u : Stream) : u.peer.peer = u := by
  obtain ⟨link, side⟩ := u
  cases side <;> rfl

@[simp] theorem Stream.peer_link (u : Stream) : u.peer.link = u.link := rfl

/-- The client end of a connection. -/
def clientEnd (c : ℕ) : Stream := ⟨c, .client⟩

/-- The server end of a connection. -/
def serverEnd (c : ℕ) : Stream := ⟨c, .server⟩

@[simp] theorem peer_clientEnd (c : ℕ) : (clientEnd c).peer = serverEnd c := rfl

@[simp] theorem peer_serverEnd (c : ℕ) : (serverEnd c).peer = clientEnd c := rfl

/-! ### Calls -/

/-- The calls of a process.  A read or a write that is interrupted is made again, so that its answer
is the last one. -/
inductive SocketCall
  | createDirAll (path : PathBuf)
  | setPermissions (path : PathBuf) (mode : ℕ)
  | symlinkMetadata (path : PathBuf)
  | exists_ (path : PathBuf)
  | bind (path : PathBuf)
  | removeFile (path : PathBuf)
  | accept
  | connect (path : PathBuf)
  | setReadTimeout (u : Stream) (nanos : ℕ)
  | setWriteTimeout (u : Stream) (nanos : ℕ)
  | read (u : Stream) (limit : ℕ)
  | write (u : Stream) (bytes : Bytes)
  | close (u : Stream)
  /-- `write_all` on the standard output. -/
  | print (bytes : Bytes)
  /-- `flush` on the standard output. -/
  | flush
  /-- A message on the standard error. -/
  | eprint

/-- What is known of a directory entry. -/
structure FileKind where
  isDir : Bool
  mode : ℕ

/-- What a call answers.  A read returns at most what was asked for, and a write takes at most what
was given. -/
@[reducible] def SocketCall.Answer : SocketCall → Type
  | createDirAll _ => Except String Unit
  | setPermissions _ _ => Except String Unit
  | symlinkMetadata _ => Except String FileKind
  | exists_ _ => Bool
  | bind _ => Except String Unit
  | removeFile _ => Except String Unit
  | accept => Except String Stream
  | connect _ => Except String Stream
  | setReadTimeout _ _ => Except String Unit
  | setWriteTimeout _ _ => Except String Unit
  | read _ limit => Except String {bytes : Bytes // bytes.length ≤ limit}
  | write _ bytes => Except String (Fin (bytes.length + 1))
  | close _ => Unit
  | print bytes => Except (WriteFailure bytes) Unit
  | flush => Except String Unit
  | eprint => Except String Unit

/-- A call with its answer. -/
abbrev Event := Prog.Event SocketCall.Answer

/-- Programs that make these calls. -/
abbrev Net (ε α : Type) := Prog SocketCall SocketCall.Answer ε α

/-! ### What a process has done -/

/-- The bytes that a call has read from a handle. -/
def readBy (u : Stream) : Event → Bytes
  | ⟨.read v _, .ok bytes⟩ => if v = u then bytes.val else []
  | _ => []

/-- The bytes of a call that were taken for a handle. -/
def writtenBy (u : Stream) : Event → Bytes
  | ⟨.write v bytes, .ok count⟩ => if v = u then bytes.take count else []
  | _ => []

/-- The bytes of a call that were taken for the standard output. -/
def printedBy : Event → Bytes
  | ⟨.print _, answer⟩ => acceptedBytes answer
  | _ => []

/-- The handle that a call has opened. -/
def openedBy : Event → Option Stream
  | ⟨.accept, .ok u⟩ => some u
  | ⟨.connect _, .ok u⟩ => some u
  | _ => none

def readsOf (u : Stream) (events : List Event) : Bytes := events.flatMap (readBy u)

def writesOf (u : Stream) (events : List Event) : Bytes := events.flatMap (writtenBy u)

def printedOf (events : List Event) : Bytes := events.flatMap printedBy

def opensOf (events : List Event) : List Stream := events.filterMap openedBy

section Append

variable (u : Stream) (e : Event) (events e₁ e₂ : List Event)

@[simp] theorem readsOf_nil : readsOf u [] = [] := rfl

@[simp] theorem readsOf_cons : readsOf u (e :: events) = readBy u e ++ readsOf u events := rfl

@[simp] theorem readsOf_append : readsOf u (e₁ ++ e₂) = readsOf u e₁ ++ readsOf u e₂ :=
  List.flatMap_append

@[simp] theorem writesOf_nil : writesOf u [] = [] := rfl

@[simp] theorem writesOf_cons : writesOf u (e :: events) = writtenBy u e ++ writesOf u events := rfl

@[simp] theorem writesOf_append : writesOf u (e₁ ++ e₂) = writesOf u e₁ ++ writesOf u e₂ :=
  List.flatMap_append

@[simp] theorem printedOf_nil : printedOf [] = [] := rfl

@[simp] theorem printedOf_cons : printedOf (e :: events) = printedBy e ++ printedOf events := rfl

@[simp] theorem printedOf_append : printedOf (e₁ ++ e₂) = printedOf e₁ ++ printedOf e₂ :=
  List.flatMap_append

@[simp] theorem opensOf_nil : opensOf [] = [] := rfl

theorem opensOf_cons : opensOf (e :: events) = (openedBy e).toList ++ opensOf events := by
  cases h : openedBy e <;> simp [opensOf, h]

@[simp] theorem opensOf_append : opensOf (e₁ ++ e₂) = opensOf e₁ ++ opensOf e₂ :=
  List.filterMap_append

end Append

/-! ### The world -/

/-- The state of all connections, and of what the processes have printed. -/
structure World (P : Type) where
  /-- The path of the socket that is bound. -/
  bound : Option PathBuf
  /-- The connections that have been made. -/
  used : ℕ → Prop
  /-- The connections that wait to be accepted. -/
  backlog : List ℕ
  /-- The process that has opened a handle. -/
  holder : Stream → Option P
  /-- The bytes sent from a handle. -/
  sent : Stream → Bytes
  /-- How many of the bytes sent to a handle have been read there. -/
  taken : Stream → ℕ
  /-- Nothing more is sent from this handle. -/
  ended : Stream → Prop
  /-- Nothing more is read at this handle. -/
  gone : Stream → Prop
  /-- The bytes taken for the standard output of a process. -/
  printed : P → Bytes
  /-- The bytes that the reader of the standard output has seen. -/
  shown : P → Bytes

/-- The world before anything has happened. -/
def World.init (P : Type) : World P where
  bound := none
  used _ := False
  backlog := []
  holder _ := none
  sent _ := []
  taken _ := 0
  ended _ := False
  gone _ := False
  printed _ := []
  shown _ := []

section System

variable {P : Type} [DecidableEq P]

/-- **What a call does and answers** when it does not fail.  Which names lead to the bound socket is
left open. -/
inductive Performs : World P → P × Event → World P → Prop
  | createDirAll (w : World P) (p : P) (path : PathBuf) :
      Performs w (p, ⟨.createDirAll path, .ok ()⟩) w
  | setPermissions (w : World P) (p : P) (path : PathBuf) (mode : ℕ) :
      Performs w (p, ⟨.setPermissions path mode, .ok ()⟩) w
  | symlinkMetadata (w : World P) (p : P) (path : PathBuf) (kind : FileKind) :
      Performs w (p, ⟨.symlinkMetadata path, .ok kind⟩) w
  | exists_ {w : World P} (p : P) {path : PathBuf} {answer : Bool} :
      (w.bound = some path → answer = true) → Performs w (p, ⟨.exists_ path, answer⟩) w
  | bind {w : World P} (p : P) (path : PathBuf) :
      w.bound = none → Performs w (p, ⟨.bind path, .ok ()⟩) { w with bound := some path }
  | removeFile (w : World P) (p : P) (path : PathBuf) :
      Performs w (p, ⟨.removeFile path, .ok ()⟩)
        { w with bound := if w.bound = some path then none else w.bound }
  | accept {w : World P} (p : P) {c : ℕ} {backlog : List ℕ} :
      w.backlog = c :: backlog →
        Performs w (p, ⟨.accept, .ok (serverEnd c)⟩)
          { w with
            backlog := backlog
            holder := Function.update w.holder (serverEnd c) (some p) }
  | connect {w : World P} (p : P) (path : PathBuf) {c : ℕ} :
      w.bound.isSome → ¬ w.used c →
        Performs w (p, ⟨.connect path, .ok (clientEnd c)⟩)
          { w with
            used := fun d => d = c ∨ w.used d
            backlog := w.backlog ++ [c]
            holder := Function.update w.holder (clientEnd c) (some p) }
  | setReadTimeout (w : World P) (p : P) (u : Stream) (nanos : ℕ) :
      Performs w (p, ⟨.setReadTimeout u nanos, .ok ()⟩) w
  | setWriteTimeout (w : World P) (p : P) (u : Stream) (nanos : ℕ) :
      Performs w (p, ⟨.setWriteTimeout u nanos, .ok ()⟩) w
  | read {w : World P} {p : P} {u : Stream} {limit : ℕ}
      {bytes : {bytes : Bytes // bytes.length ≤ limit}} :
      w.holder u = some p → bytes.val <+: (w.sent u.peer).drop (w.taken u) →
        (bytes.val = [] → limit = 0 ∨ (w.ended u.peer ∧ (w.sent u.peer).length ≤ w.taken u)) →
        Performs w (p, ⟨.read u limit, .ok bytes⟩)
          { w with taken := Function.update w.taken u (w.taken u + bytes.val.length) }
  | write {w : World P} {p : P} {u : Stream} {bytes : Bytes} {count : Fin (bytes.length + 1)} :
      w.holder u = some p → ¬ w.gone u.peer → (count = 0 → bytes = []) →
        Performs w (p, ⟨.write u bytes, .ok count⟩)
          { w with sent := Function.update w.sent u (w.sent u ++ bytes.take count) }
  | close {w : World P} {p : P} {u : Stream} :
      w.holder u = some p →
        Performs w (p, ⟨.close u, ()⟩)
          { w with
            ended := fun v => v = u ∨ w.ended v
            gone := fun v => v = u ∨ w.gone v }
  | print (w : World P) (p : P) (bytes : Bytes) :
      Performs w (p, ⟨.print bytes, .ok ()⟩)
        { w with printed := Function.update w.printed p (w.printed p ++ bytes) }
  | flush (w : World P) (p : P) :
      Performs w (p, ⟨.flush, .ok ()⟩)
        { w with shown := Function.update w.shown p (w.printed p) }
  | eprint (w : World P) (p : P) : Performs w (p, ⟨.eprint, .ok ()⟩) w

/-- **What a call leaves behind that fails**, for whatever reason: a print that fails may have been
taken in part. -/
inductive Fails : World P → P × Event → World P → Prop
  | createDirAll (w : World P) (p : P) (path : PathBuf) (message : String) :
      Fails w (p, ⟨.createDirAll path, .error message⟩) w
  | setPermissions (w : World P) (p : P) (path : PathBuf) (mode : ℕ) (message : String) :
      Fails w (p, ⟨.setPermissions path mode, .error message⟩) w
  | symlinkMetadata (w : World P) (p : P) (path : PathBuf) (message : String) :
      Fails w (p, ⟨.symlinkMetadata path, .error message⟩) w
  | bind (w : World P) (p : P) (path : PathBuf) (message : String) :
      Fails w (p, ⟨.bind path, .error message⟩) w
  | removeFile (w : World P) (p : P) (path : PathBuf) (message : String) :
      Fails w (p, ⟨.removeFile path, .error message⟩) w
  | accept (w : World P) (p : P) (message : String) : Fails w (p, ⟨.accept, .error message⟩) w
  | connect (w : World P) (p : P) (path : PathBuf) (message : String) :
      Fails w (p, ⟨.connect path, .error message⟩) w
  | setReadTimeout (w : World P) (p : P) (u : Stream) (nanos : ℕ) (message : String) :
      Fails w (p, ⟨.setReadTimeout u nanos, .error message⟩) w
  | setWriteTimeout (w : World P) (p : P) (u : Stream) (nanos : ℕ) (message : String) :
      Fails w (p, ⟨.setWriteTimeout u nanos, .error message⟩) w
  | read (w : World P) (p : P) (u : Stream) (limit : ℕ) (message : String) :
      Fails w (p, ⟨.read u limit, .error message⟩) w
  | write (w : World P) (p : P) (u : Stream) (bytes : Bytes) (message : String) :
      Fails w (p, ⟨.write u bytes, .error message⟩) w
  | print (w : World P) (p : P) {bytes : Bytes} (failure : WriteFailure bytes) :
      Fails w (p, ⟨.print bytes, .error failure⟩)
        { w with
          printed := Function.update w.printed p (w.printed p ++ bytes.take failure.accepted) }
  | flush (w : World P) (p : P) (message : String) : Fails w (p, ⟨.flush, .error message⟩) w
  | eprint (w : World P) (p : P) (message : String) : Fails w (p, ⟨.eprint, .error message⟩) w

/-- **What happens outside of all calls.** -/
inductive Outside : World P → World P → Prop
  /-- Somebody else connects. -/
  | connect {w : World P} {c : ℕ} :
      w.bound.isSome → ¬ w.used c →
        Outside w { w with used := fun d => d = c ∨ w.used d, backlog := w.backlog ++ [c] }
  /-- Somebody else sends some bytes. -/
  | send {w : World P} {c : ℕ} (bytes : Bytes) :
      w.used c → w.holder (clientEnd c) = none → ¬ w.ended (clientEnd c) →
        Outside w
          { w with
            sent := Function.update w.sent (clientEnd c) (w.sent (clientEnd c) ++ bytes) }
  /-- Somebody else reads some bytes. -/
  | receive {w : World P} {c : ℕ} (count : ℕ) :
      w.holder (clientEnd c) = none →
        w.taken (clientEnd c) + count ≤ (w.sent (serverEnd c)).length →
        Outside w
          { w with taken := Function.update w.taken (clientEnd c) (w.taken (clientEnd c) + count) }
  /-- A client sends nothing more. -/
  | finish {w : World P} (c : ℕ) :
      w.used c → Outside w { w with ended := fun v => v = clientEnd c ∨ w.ended v }
  /-- A client reads nothing more. -/
  | leave {w : World P} (c : ℕ) :
      w.used c → Outside w { w with gone := fun v => v = clientEnd c ∨ w.gone v }
  /-- What was printed is passed on. -/
  | drain {w : World P} {p : P} {bytes : Bytes} :
      w.shown p <+: bytes → bytes <+: w.printed p →
        Outside w { w with shown := Function.update w.shown p bytes }

/-- **The system**: a call is performed or fails, and anything may happen outside. -/
def system (P : Type) [DecidableEq P] : Lts (World P) (P × Event) where
  silent := Outside
  step w label w' := Performs w label w' ∨ Fails w label w'

/-! ### Handles are private -/

theorem project_snoc (p q : P) (past : List (P × Event)) (e : Event) :
    project p (past ++ [(q, e)]) = project p past ++ if q = p then [e] else [] := by
  rw [Histories.project_append]
  by_cases h : q = p <;> simp [Histories.project, h]

theorem mem_project_snoc {p q : P} {past : List (P × Event)} {d e : Event} :
    d ∈ project p (past ++ [(q, e)]) ↔ d ∈ project p past ∨ (q = p ∧ d = e) := by
  rw [project_snoc, List.mem_append]
  split_ifs with h <;> simp [h]

theorem opensOf_project_snoc (p q : P) (past : List (P × Event)) (e : Event) :
    opensOf (project p (past ++ [(q, e)])) =
      opensOf (project p past) ++ if q = p then (openedBy e).toList else [] := by
  rw [project_snoc, opensOf_append]
  split_ifs <;> simp [opensOf_cons]

/-- **Every handle is opened once**, by the process that holds it. -/
structure Handles (past : List (P × Event)) (w : World P) : Prop where
  unused : ∀ u, ¬ w.used u.link → w.holder u = none
  backlog : ∀ c ∈ w.backlog, w.used c ∧ w.holder (serverEnd c) = none
  nodup : w.backlog.Nodup
  opened : ∀ p u, u ∈ opensOf (project p past) → w.holder u = some p
  held : ∀ p u, w.holder u = some p → u ∈ opensOf (project p past)
  opens : ∀ p, (opensOf (project p past)).Nodup
  clients : ∀ p path u, ⟨.connect path, .ok u⟩ ∈ project p past → u.side = .client
  servers : ∀ p u, ⟨.accept, .ok u⟩ ∈ project p past → u.side = .server

theorem Handles.init : Handles [] (World.init P) where
  unused _ _ := rfl
  backlog _ hc := absurd hc List.not_mem_nil
  nodup := List.nodup_nil
  opened _ _ h := absurd h List.not_mem_nil
  held _ _ h := by cases h
  opens _ := List.nodup_nil
  clients _ _ _ h := absurd h List.not_mem_nil
  servers _ _ h := absurd h List.not_mem_nil

variable {past : List (P × Event)} {w w' : World P} {p : P} {e : Event}

/-- A call that opens no handle. -/
theorem Handles.keep (h : Handles past w) (he : openedBy e = none) (hused : w'.used = w.used)
    (hbacklog : w'.backlog = w.backlog) (hholder : w'.holder = w.holder) :
    Handles (past ++ [(p, e)]) w' where
  unused := by
    rw [hholder, hused]
    exact h.unused
  backlog := by
    rw [hbacklog, hholder, hused]
    exact h.backlog
  nodup := by
    rw [hbacklog]
    exact h.nodup
  opened q u hu := by
    rw [hholder]
    refine h.opened q u ?_
    rwa [opensOf_project_snoc, he, Option.toList_none, ite_self, List.append_nil] at hu
  held q u hu := by
    rw [hholder] at hu
    rw [opensOf_project_snoc, List.mem_append]
    exact Or.inl (h.held q u hu)
  opens q := by
    rw [opensOf_project_snoc, he, Option.toList_none, ite_self, List.append_nil]
    exact h.opens q
  clients q path u hmem := by
    rcases mem_project_snoc.1 hmem with hmem | ⟨-, rfl⟩
    · exact h.clients q path u hmem
    · cases he
  servers q u hmem := by
    rcases mem_project_snoc.1 hmem with hmem | ⟨-, rfl⟩
    · exact h.servers q u hmem
    · cases he

/-- A call that opens a handle which nobody held. -/
theorem Handles.open_ (h : Handles past w) {u : Stream} (he : openedBy e = some u)
    (hfree : w.holder u = none) (hlink : w'.used u.link) (hused : ∀ c, w.used c → w'.used c)
    (hholder : w'.holder = Function.update w.holder u (some p))
    (hbacklog : ∀ c ∈ w'.backlog, w'.used c ∧ w'.holder (serverEnd c) = none)
    (hnodup : w'.backlog.Nodup)
    (hclient : ∀ path, e = ⟨.connect path, .ok u⟩ → u.side = .client)
    (hserver : e = ⟨.accept, .ok u⟩ → u.side = .server) : Handles (past ++ [(p, e)]) w' where
  unused v hv := by
    have hne : v ≠ u := by
      rintro rfl
      exact hv hlink
    rw [hholder, Function.update_of_ne hne]
    exact h.unused v fun hv' => hv (hused v.link hv')
  backlog := hbacklog
  nodup := hnodup
  opened q v hv := by
    have hne : v ∈ opensOf (project q past) → v ≠ u := by
      rintro hmem rfl
      rw [h.opened q v hmem] at hfree
      cases hfree
    rw [opensOf_project_snoc, he, List.mem_append] at hv
    rw [hholder]
    rcases hv with hv | hv
    · rw [Function.update_of_ne (hne hv)]
      exact h.opened q v hv
    · split_ifs at hv with hq
      · rw [List.mem_singleton.1 hv, Function.update_self, hq]
      · cases hv
  held q v hv := by
    rw [opensOf_project_snoc, he, List.mem_append]
    rw [hholder] at hv
    by_cases hvu : v = u
    · rw [hvu, Function.update_self] at hv
      rw [if_pos (Option.some.inj hv), hvu]
      exact Or.inr (List.mem_singleton_self u)
    · rw [Function.update_of_ne hvu] at hv
      exact Or.inl (h.held q v hv)
  opens q := by
    rw [opensOf_project_snoc, he]
    split_ifs with hq
    · refine List.nodup_append.2 ⟨h.opens q, List.nodup_singleton u, ?_⟩
      rintro v hv _ hu rfl
      obtain rfl := List.mem_singleton.1 hu
      rw [h.opened q _ hv] at hfree
      cases hfree
    · rw [List.append_nil]
      exact h.opens q
  clients q path v hmem := by
    rcases mem_project_snoc.1 hmem with hmem | ⟨-, rfl⟩
    · exact h.clients q path v hmem
    · obtain rfl := Option.some.inj he
      exact hclient path rfl
  servers q v hmem := by
    rcases mem_project_snoc.1 hmem with hmem | ⟨-, rfl⟩
    · exact h.servers q v hmem
    · obtain rfl := Option.some.inj he
      exact hserver rfl

/-- **What one call keeps of the handles.** -/
theorem Handles.step {label : P × Event} (h : Handles past w)
    (hstep : (system P).step w label w') : Handles (past ++ [label]) w' := by
  rcases hstep with hperforms | hfails
  · cases hperforms with
    | @accept p c backlog hbacklog =>
        have hmem : c ∈ w.backlog := by simp [hbacklog]
        obtain ⟨hused, hfree⟩ := h.backlog c hmem
        have hnodup := h.nodup
        rw [hbacklog, List.nodup_cons] at hnodup
        refine h.open_ (u := serverEnd c) rfl hfree hused (fun _ => id) rfl ?_ hnodup.2 ?_ ?_
        · intro d hd
          have hne : serverEnd d ≠ serverEnd c := by
            intro heq
            obtain rfl : d = c := congrArg Stream.link heq
            exact hnodup.1 hd
          obtain ⟨hd', hnone⟩ := h.backlog d (by simp [hbacklog, hd])
          exact ⟨hd', (Function.update_of_ne hne _ _).trans hnone⟩
        · intro path heq
          cases heq
        · exact fun _ => rfl
    | @connect p path c hbound hfresh =>
        refine h.open_ (u := clientEnd c) rfl (h.unused _ hfresh) (Or.inl rfl)
          (fun _ => Or.inr) rfl ?_ ?_ (fun _ _ => rfl) ?_
        · intro d hd
          have hne : serverEnd d ≠ clientEnd c := by
            intro heq
            cases congrArg Stream.side heq
          refine ⟨?_, (Function.update_of_ne hne _ _).trans ?_⟩
          · rcases List.mem_append.1 hd with hd | hd
            · exact Or.inr (h.backlog d hd).1
            · exact Or.inl (List.mem_singleton.1 hd)
          · rcases List.mem_append.1 hd with hd | hd
            · exact (h.backlog d hd).2
            · obtain rfl := List.mem_singleton.1 hd
              exact h.unused (serverEnd d) hfresh
        · refine List.nodup_append.2 ⟨h.nodup, List.nodup_singleton c, ?_⟩
          rintro d hd _ hc rfl
          obtain rfl := List.mem_singleton.1 hc
          exact hfresh (h.backlog d hd).1
        · intro heq
          cases heq
    | _ => exact h.keep rfl rfl rfl rfl
  · cases hfails with
    | _ => exact h.keep rfl rfl rfl rfl

/-- What happens outside keeps the handles. -/
theorem Handles.outside (h : Handles past w) (hout : Outside w w') : Handles past w' := by
  cases hout with
  | @connect c hbound hfresh =>
      refine ⟨?_, ?_, ?_, h.opened, h.held, h.opens, h.clients, h.servers⟩
      · exact fun u hu => h.unused u fun hused => hu (Or.inr hused)
      · intro d hd
        rcases List.mem_append.1 hd with hd | hd
        · exact ⟨Or.inr (h.backlog d hd).1, (h.backlog d hd).2⟩
        · obtain rfl := List.mem_singleton.1 hd
          exact ⟨Or.inl rfl, h.unused (serverEnd d) hfresh⟩
      · refine List.nodup_append.2 ⟨h.nodup, List.nodup_singleton c, ?_⟩
        rintro d hd _ hc rfl
        obtain rfl := List.mem_singleton.1 hc
        exact hfresh (h.backlog d hd).1
  | _ => exact ⟨h.unused, h.backlog, h.nodup, h.opened, h.held, h.opens, h.clients, h.servers⟩

/-- **Every handle of a run is opened once.** -/
theorem Handles.of_run {labels : List (P × Event)}
    (h : (system P).Run (World.init P) labels w) : Handles labels w := by
  have hall : Handles ([] ++ labels) w :=
    h.history (fun hsilent hpast => hpast.outside hsilent)
      (fun _ hstep hpast => hpast.step hstep) Handles.init
  exact hall

/-! ### Streams are reliable -/

/-- **What is sent arrives**: a process has read from a handle what was sent to it, as far as it
has read, and what it has written to the handle is all that was sent from it. -/
structure Streams (past : List (P × Event)) (w : World P) : Prop where
  /-- Nothing has come from a handle that nobody could use. -/
  unheld : ∀ u, w.holder u = none → u.side = .server ∨ ¬ w.used u.link → w.sent u = []
  untaken : ∀ u, w.holder u = none → u.side = .server ∨ ¬ w.used u.link → w.taken u = 0
  reads : ∀ p u, w.holder u = some p →
    readsOf u (project p past) = (w.sent u.peer).take (w.taken u) ∧
      w.taken u ≤ (w.sent u.peer).length
  writes : ∀ p u, w.holder u = some p → writesOf u (project p past) = w.sent u
  /-- A process has used no handle but its own. -/
  private_ : ∀ p u, w.holder u ≠ some p →
    readsOf u (project p past) = [] ∧ writesOf u (project p past) = []

theorem Streams.init : Streams [] (World.init P) where
  unheld _ _ _ := rfl
  untaken _ _ _ := rfl
  reads _ _ h := by cases h
  writes _ _ h := by cases h
  private_ _ _ _ := ⟨rfl, rfl⟩

theorem readsOf_project_snoc (u : Stream) (q : P) :
    readsOf u (project q (past ++ [(p, e)])) =
      readsOf u (project q past) ++ if p = q then readBy u e else [] := by
  rw [project_snoc, readsOf_append]
  split_ifs <;> simp

theorem writesOf_project_snoc (u : Stream) (q : P) :
    writesOf u (project q (past ++ [(p, e)])) =
      writesOf u (project q past) ++ if p = q then writtenBy u e else [] := by
  rw [project_snoc, writesOf_append]
  split_ifs <;> simp

/-- A call that neither reads nor writes, nor opens a handle. -/
theorem Streams.keep (h : Streams past w) (hread : ∀ u, readBy u e = [])
    (hwrite : ∀ u, writtenBy u e = []) (hused : w'.used = w.used) (hholder : w'.holder = w.holder)
    (hsent : w'.sent = w.sent) (htaken : w'.taken = w.taken) : Streams (past ++ [(p, e)]) w' where
  unheld := by
    rw [hholder, hused, hsent]
    exact h.unheld
  untaken := by
    rw [hholder, hused, htaken]
    exact h.untaken
  reads q u := by
    rw [hholder, hsent, htaken, readsOf_project_snoc, hread, ite_self, List.append_nil]
    exact h.reads q u
  writes q u := by
    rw [hholder, hsent, writesOf_project_snoc, hwrite, ite_self, List.append_nil]
    exact h.writes q u
  private_ q u := by
    rw [hholder, readsOf_project_snoc, writesOf_project_snoc, hread, hwrite, ite_self,
      List.append_nil, List.append_nil]
    exact h.private_ q u

/-- What has been read stays read when more is sent. -/
theorem take_update_sent {sent : Stream → Bytes} {u v : Stream} {n : ℕ} (bytes : Bytes)
    (hle : n ≤ (sent v).length) :
    (Function.update sent u (sent u ++ bytes) v).take n = (sent v).take n ∧
      n ≤ (Function.update sent u (sent u ++ bytes) v).length := by
  by_cases h : v = u
  · subst h
    rw [Function.update_self, List.take_append_of_le_length hle, List.length_append]
    exact ⟨rfl, by omega⟩
  · rw [Function.update_of_ne h]
    exact ⟨rfl, hle⟩

/-- A call that opens a handle which nobody could use. -/
theorem Streams.open_ (h : Streams past w) {u : Stream} (hread : ∀ v, readBy v e = [])
    (hwrite : ∀ v, writtenBy v e = []) (hfree : w.holder u = none)
    (hfresh : u.side = .server ∨ ¬ w.used u.link) (hused : ∀ c, w.used c → w'.used c)
    (hholder : w'.holder = Function.update w.holder u (some p)) (hsent : w'.sent = w.sent)
    (htaken : w'.taken = w.taken) : Streams (past ++ [(p, e)]) w' := by
  have hbefore : ∀ v, w'.holder v = none → w.holder v = none := by
    intro v hv
    rw [hholder] at hv
    by_cases hvu : v = u
    · rw [hvu]
      exact hfree
    · rwa [Function.update_of_ne hvu] at hv
  have hlink : ∀ v : Stream, v.side = .server ∨ ¬ w'.used v.link →
      v.side = .server ∨ ¬ w.used v.link :=
    fun v hv => hv.imp_right fun hnot hused' => hnot (hused v.link hused')
  constructor
  · intro v hv hside
    rw [hsent]
    exact h.unheld v (hbefore v hv) (hlink v hside)
  · intro v hv hside
    rw [htaken]
    exact h.untaken v (hbefore v hv) (hlink v hside)
  · intro q v hv
    rw [readsOf_project_snoc, hread, ite_self, List.append_nil, hsent, htaken]
    rw [hholder] at hv
    by_cases hvu : v = u
    · subst hvu
      have hnone : w.holder v ≠ some q := by rw [hfree]; exact Option.some_ne_none q |>.symm
      rw [(h.private_ q v hnone).1, h.untaken v hfree hfresh]
      exact ⟨rfl, Nat.zero_le _⟩
    · rw [Function.update_of_ne hvu] at hv
      exact h.reads q v hv
  · intro q v hv
    rw [writesOf_project_snoc, hwrite, ite_self, List.append_nil, hsent]
    rw [hholder] at hv
    by_cases hvu : v = u
    · subst hvu
      have hnone : w.holder v ≠ some q := by rw [hfree]; exact Option.some_ne_none q |>.symm
      rw [(h.private_ q v hnone).2, h.unheld v hfree hfresh]
    · rw [Function.update_of_ne hvu] at hv
      exact h.writes q v hv
  · intro q v hv
    rw [readsOf_project_snoc, writesOf_project_snoc, hread, hwrite, ite_self, List.append_nil,
      List.append_nil]
    refine h.private_ q v ?_
    rw [hholder] at hv
    by_cases hvu : v = u
    · rw [hvu, hfree]
      exact (Option.some_ne_none q).symm
    · rwa [Function.update_of_ne hvu] at hv

/-- **What one call tells about the streams.** -/
theorem Streams.step {label : P × Event} (h : Streams past w) (hhandles : Handles past w)
    (hstep : (system P).step w label w') : Streams (past ++ [label]) w' := by
  rcases hstep with hperforms | hfails
  · cases hperforms with
    | @accept p c backlog hbacklog =>
        obtain ⟨-, hfree⟩ := hhandles.backlog c (by simp [hbacklog])
        exact h.open_ (u := serverEnd c) (fun _ => rfl) (fun _ => rfl) hfree (Or.inl rfl)
          (fun _ => id) rfl rfl rfl
    | @connect p path c hbound hfresh =>
        exact h.open_ (u := clientEnd c) (fun _ => rfl) (fun _ => rfl) (hhandles.unused _ hfresh)
          (Or.inr hfresh) (fun _ => Or.inr) rfl rfl rfl
    | @read p u limit bytes hholder hpiece hend =>
        have hother : ∀ {q v}, v ≠ u ∨ p ≠ q →
            readsOf v (project q (past ++ [(p, ⟨.read u limit, .ok bytes⟩)])) =
              readsOf v (project q past) := by
          intro q v hne
          rw [readsOf_project_snoc]
          by_cases hq : p = q
          · have huv : u ≠ v := fun heq => hne.elim (fun hv => hv heq.symm) (fun hp => hp hq)
            simp [readBy, huv, hq]
          · simp [hq]
        constructor
        · exact h.unheld
        · intro v hv hside
          by_cases hvu : v = u
          · rw [hvu, hholder] at hv
            cases hv
          · exact (Function.update_of_ne hvu _ _).trans (h.untaken v hv hside)
        · intro q v hv
          by_cases hvu : v = u
          · subst hvu
            obtain rfl : p = q := Option.some.inj (hholder.symm.trans hv)
            obtain ⟨htake, hle⟩ := h.reads p v hv
            have hlength : bytes.val.length ≤ ((w.sent v.peer).drop (w.taken v)).length :=
              hpiece.length_le
            rw [List.length_drop] at hlength
            rw [readsOf_project_snoc, if_pos rfl, htake]
            simp only [readBy, if_true, Function.update_self]
            refine ⟨?_, by omega⟩
            -- the piece is what comes next
            rw [List.take_add, ← List.prefix_iff_eq_take.1 hpiece]
          · rw [hother (Or.inl hvu)]
            simp only [Function.update_of_ne hvu]
            exact h.reads q v hv
        · intro q v hv
          rw [writesOf_project_snoc]
          simp only [writtenBy, ite_self, List.append_nil]
          exact h.writes q v hv
        · intro q v hv
          have hne : v ≠ u ∨ p ≠ q := by
            by_contra hboth
            rw [not_or, not_not, not_not] at hboth
            obtain ⟨rfl, rfl⟩ := hboth
            exact hv hholder
          rw [hother hne, writesOf_project_snoc]
          simp only [writtenBy, ite_self, List.append_nil]
          exact h.private_ q v hv
    | @write p u bytes count hholder hopen hpositive =>
        have hother : ∀ {q v}, v ≠ u ∨ p ≠ q →
            writesOf v (project q (past ++ [(p, ⟨.write u bytes, .ok count⟩)])) =
              writesOf v (project q past) := by
          intro q v hne
          rw [writesOf_project_snoc]
          by_cases hq : p = q
          · have huv : u ≠ v := fun heq => hne.elim (fun hv => hv heq.symm) (fun hp => hp hq)
            simp [writtenBy, huv, hq]
          · simp [hq]
        constructor
        · intro v hv hside
          by_cases hvu : v = u
          · rw [hvu, hholder] at hv
            cases hv
          · exact (Function.update_of_ne hvu _ _).trans (h.unheld v hv hside)
        · exact h.untaken
        · intro q v hv
          obtain ⟨htake, hle⟩ := h.reads q v hv
          obtain ⟨htake', hle'⟩ := take_update_sent (u := u) (bytes.take count) hle
          rw [readsOf_project_snoc]
          simp only [readBy, ite_self, List.append_nil]
          exact ⟨htake.trans htake'.symm, hle'⟩
        · intro q v hv
          by_cases hvu : v = u
          · subst hvu
            obtain rfl : p = q := Option.some.inj (hholder.symm.trans hv)
            rw [writesOf_project_snoc, if_pos rfl, h.writes p v hv]
            simp only [writtenBy, if_true, Function.update_self]
          · rw [hother (Or.inl hvu)]
            simp only [Function.update_of_ne hvu]
            exact h.writes q v hv
        · intro q v hv
          have hne : v ≠ u ∨ p ≠ q := by
            by_contra hboth
            rw [not_or, not_not, not_not] at hboth
            obtain ⟨rfl, rfl⟩ := hboth
            exact hv hholder
          rw [hother hne, readsOf_project_snoc]
          simp only [readBy, ite_self, List.append_nil]
          exact h.private_ q v hv
    | _ => exact h.keep (fun _ => rfl) (fun _ => rfl) rfl rfl rfl rfl
  · cases hfails with
    | _ => exact h.keep (fun _ => rfl) (fun _ => rfl) rfl rfl rfl rfl

/-- What happens outside tells nothing that a process could know. -/
theorem Streams.outside (h : Streams past w) (hhandles : Handles past w) (hout : Outside w w') :
    Streams past w' := by
  cases hout with
  | connect hbound hfresh =>
      refine ⟨?_, ?_, h.reads, h.writes, h.private_⟩
      · intro u hu hside
        exact h.unheld u hu (hside.imp_right fun hnot hused => hnot (Or.inr hused))
      · intro u hu hside
        exact h.untaken u hu (hside.imp_right fun hnot hused => hnot (Or.inr hused))
  | @send c bytes hused hfree hended =>
      refine ⟨?_, h.untaken, ?_, ?_, h.private_⟩
      · intro u hu hside
        have hne : u ≠ clientEnd c := by
          rintro rfl
          rcases hside with hserver | hnot
          · cases hserver
          · exact hnot hused
        exact (Function.update_of_ne hne _ _).trans (h.unheld u hu hside)
      · intro q u hu
        obtain ⟨htake, hle⟩ := h.reads q u hu
        obtain ⟨htake', hle'⟩ := take_update_sent (u := clientEnd c) bytes hle
        exact ⟨htake.trans htake'.symm, hle'⟩
      · intro q u hu
        have hne : u ≠ clientEnd c := by
          rintro rfl
          rw [hfree] at hu
          cases hu
        exact (h.writes q u hu).trans (Function.update_of_ne hne _ _).symm
  | @receive c count hfree hle =>
      have hne : ∀ {q u}, w.holder u = some q → u ≠ clientEnd c := by
        rintro q u hu rfl
        rw [hfree] at hu
        cases hu
      refine ⟨h.unheld, ?_, ?_, h.writes, h.private_⟩
      · intro u hu hside
        by_cases huc : u = clientEnd c
        · -- what was sent to a handle that nobody could use is nothing
          subst huc
          rcases hside with hserver | hnot
          · cases hserver
          · have hnone := h.unheld (serverEnd c) (hhandles.unused (serverEnd c) hnot) (Or.inl rfl)
            have hzero := h.untaken (clientEnd c) hu (Or.inr hnot)
            rw [hnone, List.length_nil] at hle
            simp only [Function.update_self]
            omega
        · exact (Function.update_of_ne huc _ _).trans (h.untaken u hu hside)
      · intro q u hu
        simp only [Function.update_of_ne (hne hu)]
        exact h.reads q u hu
  | _ => exact ⟨h.unheld, h.untaken, h.reads, h.writes, h.private_⟩

/-- **Connections are private reliable streams**, in every run. -/
theorem Streams.of_run {labels : List (P × Event)}
    (h : (system P).Run (World.init P) labels w) : Streams labels w := by
  have hboth : Handles ([] ++ labels) w ∧ Streams ([] ++ labels) w := by
    refine h.history (P := fun past w => Handles past w ∧ Streams past w) ?_ ?_
      ⟨Handles.init, Streams.init⟩
    · intro past w w' hsilent hpast
      exact ⟨hpast.1.outside hsilent, hpast.2.outside hpast.1 hsilent⟩
    · intro past w w' label _ hstep hpast
      exact ⟨hpast.1.step hstep, hpast.2.step hpast.1 hstep⟩
  exact hboth.2

/-- What a process has read from a handle was sent to it. -/
theorem Streams.reads_isPrefix (h : Streams past w) (p : P) (u : Stream) :
    readsOf u (project p past) <+: w.sent u.peer := by
  by_cases hu : w.holder u = some p
  · rw [(h.reads p u hu).1]
    exact List.take_prefix _ _
  · rw [(h.private_ p u hu).1]
    exact List.nil_prefix

/-! ### What was flushed has been seen -/

/-- **What is known of the outputs**: what was printed, and what its reader has seen at least. -/
structure Output (past : List (P × Event)) (w : World P) : Prop where
  printed : ∀ p, printedOf (project p past) = w.printed p
  shown : ∀ p, w.shown p <+: w.printed p
  flushed : ∀ p l₁ l₂, project p past = l₁ ++ ⟨.flush, .ok ()⟩ :: l₂ → printedOf l₁ <+: w.shown p

theorem Output.init : Output [] (World.init P) where
  printed _ := rfl
  shown _ := List.prefix_refl []
  flushed p l₁ l₂ h := by
    rw [Histories.project_nil] at h
    exact absurd h.symm (by simp)

theorem printedOf_project_snoc (q : P) :
    printedOf (project q (past ++ [(p, e)])) =
      printedOf (project q past) ++ if p = q then printedBy e else [] := by
  rw [project_snoc, printedOf_append]
  split_ifs <;> simp

/-- A flush of the longer history is the last call, or one of the shorter history. -/
theorem flush_project_snoc {q : P} {l₁ l₂ : List Event}
    (h : project q (past ++ [(p, e)]) = l₁ ++ ⟨.flush, .ok ()⟩ :: l₂) :
    (p = q ∧ e = ⟨.flush, .ok ()⟩ ∧ l₁ = project q past) ∨
      ∃ l₂', project q past = l₁ ++ ⟨.flush, .ok ()⟩ :: l₂' := by
  rw [project_snoc] at h
  split_ifs at h with hq
  · rcases List.eq_nil_or_concat l₂ with rfl | ⟨l₂', d, rfl⟩
    · obtain ⟨hl, he⟩ := List.append_inj' h rfl
      exact Or.inl ⟨hq, (List.cons.inj he).1, hl.symm⟩
    · rw [List.concat_eq_append, ← List.cons_append, ← List.append_assoc] at h
      exact Or.inr ⟨l₂', (List.append_inj' h rfl).1⟩
  · rw [List.append_nil] at h
    exact Or.inr ⟨l₂, h⟩

/-- A call that neither prints nor flushes. -/
theorem Output.keep (h : Output past w) (hprint : printedBy e = [])
    (hflush : e ≠ ⟨.flush, .ok ()⟩) (hprinted : w'.printed = w.printed)
    (hshown : w'.shown = w.shown) : Output (past ++ [(p, e)]) w' where
  printed q := by
    rw [printedOf_project_snoc, hprint, ite_self, List.append_nil, hprinted]
    exact h.printed q
  shown q := by
    rw [hprinted, hshown]
    exact h.shown q
  flushed q l₁ l₂ hl := by
    rw [hshown]
    rcases flush_project_snoc hl with ⟨-, he, -⟩ | ⟨l₂', hl'⟩
    · exact absurd he hflush
    · exact h.flushed q l₁ l₂' hl'

/-- A call that prints, maybe in part. -/
theorem Output.print (h : Output past w) (hflush : e ≠ ⟨.flush, .ok ()⟩)
    (hprinted : w'.printed = Function.update w.printed p (w.printed p ++ printedBy e))
    (hshown : w'.shown = w.shown) : Output (past ++ [(p, e)]) w' where
  printed q := by
    rw [printedOf_project_snoc, hprinted]
    split_ifs with hq
    · rw [← hq, Function.update_self, h.printed]
    · rw [Function.update_of_ne (Ne.symm hq), List.append_nil, h.printed]
  shown q := by
    rw [hprinted, hshown]
    by_cases hq : q = p
    · rw [hq, Function.update_self]
      exact (h.shown p).trans (List.prefix_append _ _)
    · rw [Function.update_of_ne hq]
      exact h.shown q
  flushed q l₁ l₂ hl := by
    rw [hshown]
    rcases flush_project_snoc hl with ⟨-, he, -⟩ | ⟨l₂', hl'⟩
    · exact absurd he hflush
    · exact h.flushed q l₁ l₂' hl'

/-- More of the output is seen. -/
theorem Output.shown_update {shown : Bytes} (h : Output past w) (hle : w.shown p <+: shown)
    (hprinted : shown <+: w.printed p) :
    Output past { w with shown := Function.update w.shown p shown } := by
  refine ⟨h.printed, fun q => ?_, fun q l₁ l₂ hl => ?_⟩
  · by_cases hq : q = p
    · subst hq
      simpa using hprinted
    · simpa [Function.update_of_ne hq] using h.shown q
  · by_cases hq : q = p
    · subst hq
      simpa using (h.flushed q l₁ l₂ hl).trans hle
    · simpa [Function.update_of_ne hq] using h.flushed q l₁ l₂ hl

/-- **What one call tells about the outputs.** -/
theorem Output.step {label : P × Event} (h : Output past w)
    (hstep : (system P).step w label w') : Output (past ++ [label]) w' := by
  rcases hstep with hperforms | hfails
  · cases hperforms with
    | print p bytes => exact h.print (fun heq => by cases heq) rfl rfl
    | flush p =>
        have hupdate := h.shown_update (p := p) (h.shown p) (List.prefix_refl _)
        refine ⟨?_, hupdate.shown, ?_⟩
        · intro q
          rw [printedOf_project_snoc]
          simp only [printedBy, ite_self, List.append_nil]
          exact h.printed q
        · intro q l₁ l₂ hl
          rcases flush_project_snoc hl with ⟨rfl, -, rfl⟩ | ⟨l₂', hl'⟩
          · simp only [Function.update_self]
            rw [h.printed p]
          · exact hupdate.flushed q l₁ l₂' hl'
    | _ => exact h.keep rfl (fun heq => by cases heq) rfl rfl
  · cases hfails with
    | print p failure => exact h.print (fun heq => by cases heq) rfl rfl
    | _ => exact h.keep rfl (fun heq => by cases heq) rfl rfl

theorem Output.outside (h : Output past w) (hout : Outside w w') : Output past w' := by
  cases hout with
  | drain hle hprinted => exact h.shown_update hle hprinted
  | _ => exact ⟨h.printed, h.shown, h.flushed⟩

/-- **What was flushed has been seen**, in every run. -/
theorem Output.of_run {labels : List (P × Event)}
    (h : (system P).Run (World.init P) labels w) : Output labels w := by
  have hall : Output ([] ++ labels) w :=
    h.history (fun hsilent hpast => hpast.outside hsilent)
      (fun _ hstep hpast => hpast.step hstep) Output.init
  exact hall

end System

end Sockets
