/-
The calls of a program on a terminal device, one at a time.

An exchange and a preview talk to the terminal by system calls, and every one of them may fail.  The
programs here perform these calls in the order of the source, so that a failure of any of them takes
the path that the source takes, with the drops that happen on it.

A call knows which part of the program makes it: the part that enters the alternate screen, the
guards that restore the terminal when they are dropped, or anything else.  What the device does with
a call does not depend on this, except that the modes of the screen are switched by what is written
to enter it and by what is written to restore it.  A write that fails has been accepted in part.

Main definitions:

* `TermInterop.TtyCall`, `TermInterop.TtyProg` — the calls, and programs that make them;
* `TermInterop.ttyDevice` — what the device does;
* `TermInterop.Calls.withRawMode` — raw mode with its guard;
* `TermInterop.Calls.executeTtyExchange` — one exchange, call by call.

Main results:

* `TermInterop.Calls.withRawMode_ends` — how a program in raw mode ends;
* `TermInterop.Calls.executeTtyExchange_refines` — **the calls of an exchange are those of the
  exchange on scripts**.
-/

import TermInterop.Lts
import TermInterop.Prog
import TermInterop.TtyExchange

set_option relaxedAutoImplicit false
set_option autoImplicit false

namespace TermInterop

/-! ### The calls -/

/-- The part of a program that makes a call. -/
inductive Site
  | body
  | enter
  | restore
  deriving DecidableEq

/-- The calls of a program on a terminal with attributes `τ`. -/
inductive TtyCall (τ : Type)
  | openTty (path : Bytes)
  | tcgetattr
  | tcflush
  | tcsetattr (site : Site) (termios : τ)
  | tryClone
  | writeAll (site : Site) (bytes : Bytes)
  | flush (site : Site)
  | instantNow
  | poll (millis : ℕ)
  | read (capacity : ℕ)

/-- A write that failed, after some of its bytes were accepted. -/
structure WriteFailure (bytes : Bytes) where
  message : String
  accepted : Fin bytes.length

/-- What a call answers. -/
@[reducible] def TtyCall.Answer {τ : Type} : TtyCall τ → Type
  | openTty _ => Except String Unit
  | tcgetattr => Except Errno τ
  | tcflush => Except Errno Unit
  | tcsetattr _ _ => Except Errno Unit
  | tryClone => Except String Unit
  | writeAll _ bytes => Except (WriteFailure bytes) Unit
  | flush _ => Except String Unit
  | instantNow => ℕ
  | poll _ => Except Errno ℕ
  | read _ => Except String Bytes

/-- A call with its answer. -/
abbrev TtyEvent (τ : Type) := Prog.Event (@TtyCall.Answer τ)

/-- Programs over these calls. -/
abbrev TtyProg (τ α : Type) := Prog (TtyCall τ) TtyCall.Answer AppError α

/-! ### The device -/

/-- Switching to the alternate screen. -/
def switchSequence : Bytes := Text.asBytes "\x1b[?1049h"

/-- What is written to enter the screen: the switch, a clear screen, and the hidden cursor. -/
def enterSequence : Bytes := Text.asBytes "\x1b[?1049h\x1b[2J\x1b[H\x1b[?25l"

/-- Showing the cursor. -/
def showSequence : Bytes := Text.asBytes "\x1b[?25h"

/-- What is written to leave the screen: the visible cursor, and the switch back. -/
def leaveSequence : Bytes := Text.asBytes "\x1b[?25h\x1b[?1049l"

/-- The terminal: its attributes, and two modes of its screen. -/
structure TtyState (τ : Type) where
  termios : τ
  alternate : Bool
  cursorHidden : Bool

namespace TtyState

variable {τ : Type}

/-- What accepted bytes do to the modes. -/
def accept (s : TtyState τ) : Site → Bytes → TtyState τ
  | .body, _ => s
  | .enter, bytes =>
      { s with
        alternate := s.alternate || decide (switchSequence <+: bytes)
        cursorHidden := s.cursorHidden || decide (enterSequence <+: bytes) }
  | .restore, bytes =>
      { s with
        alternate := s.alternate && !decide (leaveSequence <+: bytes)
        cursorHidden := s.cursorHidden && !decide (showSequence <+: bytes) }

@[simp] theorem accept_body (s : TtyState τ) (bytes : Bytes) : s.accept .body bytes = s := rfl

@[simp] theorem accept_termios (s : TtyState τ) (site : Site) (bytes : Bytes) :
    (s.accept site bytes).termios = s.termios := by
  cases site <;> rfl

end TtyState

variable {τ : Type}

/-- The bytes of a write that the terminal has accepted. -/
def acceptedBytes {bytes : Bytes} : Except (WriteFailure bytes) Unit → Bytes
  | .ok () => bytes
  | .error failure => bytes.take failure.accepted

/-- The state after a call. -/
def TtyState.after (s : TtyState τ) : TtyEvent τ → TtyState τ
  | ⟨.tcsetattr _ termios, .ok ()⟩ => { s with termios := termios }
  | ⟨.writeAll site _, answer⟩ => s.accept site (acceptedBytes answer)
  | _ => s

/-- **The device**: attributes that are read are the ones in force. -/
def ttyDevice (τ : Type) : Lts (TtyState τ) (TtyEvent τ) where
  silent _ _ := False
  step s e t := (∀ termios, e = ⟨.tcgetattr, .ok termios⟩ → termios = s.termios) ∧ t = s.after e

theorem ttyDevice_run_nil_iff {s t : TtyState τ} : (ttyDevice τ).Run s [] t ↔ t = s :=
  Lts.run_nil_iff_of_not_silent fun _ _ => id

theorem ttyDevice_run_cons_iff {s t : TtyState τ} {e : TtyEvent τ} {events : List (TtyEvent τ)} :
    (ttyDevice τ).Run s (e :: events) t ↔
      (∀ termios, e = ⟨.tcgetattr, .ok termios⟩ → termios = s.termios) ∧
        (ttyDevice τ).Run (s.after e) events t := by
  rw [Lts.run_cons_iff_of_not_silent fun _ _ => id]
  constructor
  · rintro ⟨t', ⟨hread, rfl⟩, hrun⟩
    exact ⟨hread, hrun⟩
  · rintro ⟨hread, hrun⟩
    exact ⟨s.after e, ⟨hread, rfl⟩, hrun⟩

/-- A call that changes nothing of the terminal, that no restoration depends on, and that writes
nothing but what is allowed. -/
def Quiet (allowed : Bytes → Prop) : TtyEvent τ → Prop
  | ⟨.tcsetattr _ _, .ok ()⟩ => False
  | ⟨.tryClone, _⟩ => False
  | ⟨.writeAll site bytes, _⟩ => site = .body ∧ allowed bytes
  | ⟨.flush site, _⟩ => site = .body
  | _ => True

theorem Quiet.after_eq {allowed : Bytes → Prop} {e : TtyEvent τ} (h : Quiet allowed e)
    (s : TtyState τ) : s.after e = s := by
  obtain ⟨op, answer⟩ := e
  cases op with
  | tcsetattr site termios =>
      cases answer with
      | ok u => exact h.elim
      | error error => rfl
  | writeAll site bytes =>
      obtain rfl := h.1
      rfl
  | _ => rfl

/-- **Quiet calls leave the terminal as it was.** -/
theorem eq_of_quiet {allowed : Bytes → Prop} {s t : TtyState τ} {events : List (TtyEvent τ)}
    (h : (ttyDevice τ).Run s events t) (hquiet : ∀ e ∈ events, Quiet allowed e) : t = s := by
  refine h.invariant (I := fun u => u = s) ?_ ?_ rfl
  · intro u v hsilent _
    exact hsilent.elim
  · intro u v e hmem hstep hu
    rw [hstep.2, (hquiet e hmem).after_eq, hu]

namespace Calls

/-! ### Programs -/

/-- One call, for its answer. -/
abbrev sys (op : TtyCall τ) : TtyProg τ op.Answer := Prog.call op

/-- Open the terminal for reading and writing. -/
def openTty (path : Bytes) : TtyProg τ Unit := do
  let answer ← sys (.openTty path)
  Prog.ofExcept (answer.mapError AppError.io)

/-- The attributes in force. -/
def tcgetattr : TtyProg τ τ := do
  let answer ← sys .tcgetattr
  Prog.ofExcept (answer.mapError AppError.terminal)

/-- Discard the input that has arrived. -/
def tcflush : TtyProg τ Unit := do
  let answer ← sys .tcflush
  Prog.ofExcept (answer.mapError AppError.terminal)

/-- Set the attributes at once. -/
def tcsetattr (site : Site) (termios : τ) : TtyProg τ Unit := do
  let answer ← sys (.tcsetattr site termios)
  Prog.ofExcept (answer.mapError AppError.terminal)

/-- A second handle on the terminal, for the guard. -/
def tryClone : TtyProg τ Unit := do
  let answer ← sys .tryClone
  Prog.ofExcept (answer.mapError AppError.io)

/-- Write all bytes. -/
def writeAll (site : Site) (bytes : Bytes) : TtyProg τ Unit := do
  let answer ← sys (.writeAll site bytes)
  Prog.ofExcept (answer.mapError fun failure => AppError.io failure.message)

def flush (site : Site) : TtyProg τ Unit := do
  let answer ← sys (.flush site)
  Prog.ofExcept (answer.mapError AppError.io)

def read (capacity : ℕ) : TtyProg τ Bytes := do
  let answer ← sys (.read capacity)
  Prog.ofExcept (answer.mapError AppError.io)

/-- **Raw mode**: what is done to enter it, and the guard that restores the attributes when the
program in raw mode has ended. -/
def withRawMode {α : Type} (makeRaw : τ → τ) (body : TtyProg τ α) : TtyProg τ α := do
  let original ← tcgetattr
  tcflush
  tcsetattr .body (makeRaw original)
  tryClone
  -- `Drop for RawModeGuard`
  body.finally_ (tcsetattr .restore original).ignored

/-- The milliseconds to wait for input. -/
def remainingTimeout (deadline now : ℕ) : ℕ := min (max (asMillis (deadline - now)) 1) 65535

/-- The loop of an exchange, from a response on, for some turns. -/
def exchangeLoop (stopWhen : Bytes → Option StopReason) (maxResponseBytes deadline : ℕ) :
    ℕ → Bytes → TtyProg τ (Bytes × StopReason)
  | 0, _ => Prog.unfinished
  | turns + 1, response =>
      match stopNow stopWhen maxResponseBytes response with
      | some reason => pure (response, reason)
      | none => do
          let now ← sys .instantNow
          if deadline ≤ now then pure (response, .timeout)
          else do
            let before ← sys .instantNow
            match ← sys (.poll (remainingTimeout deadline before)) with
            | .ok 0 => pure (response, .timeout)
            | .error .EINTR => exchangeLoop stopWhen maxResponseBytes deadline turns response
            | .error error => Prog.fail (.terminal error)
            | .ok _ => do
                let available := maxResponseBytes - response.length
                let bytes ← read (min available 4096)
                if bytes.length = 0 then pure (response, .endOfInput)
                else if min available 4096 < bytes.length then
                  Prog.fail (.io "TTY read exceeded the supplied buffer")
                else exchangeLoop stopWhen maxResponseBytes deadline turns (response ++ bytes)

/-- What an exchange does in raw mode. -/
def exchangeInRawMode (turns : ℕ) (request : Bytes) (timeout maxResponseBytes : ℕ)
    (stopWhen : Bytes → Option StopReason) : TtyProg τ LiveExchange := do
  writeAll .body request
  flush .body
  let started ← sys .instantNow
  match checkedAdd started timeout with
  | none => Prog.fail .timeoutOutOfRange
  | some deadline => do
      let (response, stopReason) ← exchangeLoop stopWhen maxResponseBytes deadline turns []
      let finished ← sys .instantNow
      pure ⟨response, finished - started, stopReason⟩

/-- **One exchange**, call by call. -/
def executeTtyExchange (makeRaw : τ → τ) (turns : ℕ) (ttyPath request : Bytes)
    (timeout maxResponseBytes : ℕ) (stopWhen : Bytes → Option StopReason) :
    TtyProg τ LiveExchange :=
  if timeout = 0 then Prog.fail .zeroTimeout
  else if maxResponseBytes = 0 then Prog.fail .zeroResponseLimit
  else do
    openTty ttyPath
    withRawMode makeRaw (exchangeInRawMode turns request timeout maxResponseBytes stopWhen)

/-! ### How calls end -/

section Ends

variable {events : List (TtyEvent τ)} {α : Type}

/-- A call ends with its answer. -/
theorem sys_mapError_ends_iff {op : TtyCall τ} {ε β : Type} {f : ε → AppError}
    {answer : op.Answer → Except ε β} {r : Except AppError β} :
    (sys op >>= fun a => Prog.ofExcept ((answer a).mapError f) : TtyProg τ β).Ends events r ↔
      ∃ a, events = [⟨op, a⟩] ∧ r = (answer a).mapError f := by
  simp only [Prog.bind_ends_iff, Prog.call_ends_iff, Prog.ofExcept_ends_iff]
  constructor
  · rintro (⟨error, ⟨a, -, h⟩, -⟩ | ⟨_, a, _, ⟨a', rfl, h⟩, ⟨rfl, rfl⟩, rfl⟩)
    · cases h
    · obtain rfl := Except.ok.inj h
      exact ⟨a, rfl, rfl⟩
  · rintro ⟨a, rfl, rfl⟩
    exact Or.inr ⟨[⟨op, a⟩], a, [], ⟨a, rfl, rfl⟩, ⟨rfl, rfl⟩, rfl⟩

/-- **What follows a call**: nothing where it fails, and the rest of the program otherwise. -/
theorem sys_mapError_bind_ends {op : TtyCall τ} {ε β : Type} {f : ε → AppError}
    {answer : op.Answer → Except ε β} {g : β → TtyProg τ α} {r : Except AppError α}
    (h : ((sys op >>= fun a => Prog.ofExcept ((answer a).mapError f)) >>= g).Ends events r) :
    (∃ a error, answer a = .error error ∧ events = [⟨op, a⟩] ∧ r = .error (f error)) ∨
      ∃ a b rest, answer a = .ok b ∧ events = ⟨op, a⟩ :: rest ∧ (g b).Ends rest r := by
  rcases Prog.bind_ends_iff.1 h with ⟨error, hx, hr⟩ | ⟨e₁, b, e₂, hx, hg, rfl⟩
  · obtain ⟨a, rfl, ha⟩ := sys_mapError_ends_iff.1 hx
    cases hanswer : answer a with
    | ok b =>
        rw [hanswer] at ha
        cases ha
    | error error' =>
        rw [hanswer] at ha
        obtain rfl := Except.error.inj ha
        exact Or.inl ⟨a, error', hanswer, rfl, hr⟩
  · obtain ⟨a, rfl, ha⟩ := sys_mapError_ends_iff.1 hx
    cases hanswer : answer a with
    | ok b' =>
        rw [hanswer] at ha
        obtain rfl := Except.ok.inj ha
        exact Or.inr ⟨a, _, e₂, hanswer, rfl, hg⟩
    | error error =>
        rw [hanswer] at ha
        cases ha

theorem tcsetattr_ends_iff {site : Site} {termios : τ} {r : Except AppError Unit} :
    (tcsetattr site termios).Ends events r ↔
      ∃ answer, events = [⟨.tcsetattr site termios, answer⟩] ∧
        r = answer.mapError AppError.terminal :=
  sys_mapError_ends_iff

/-- The calls that enter raw mode. -/
def rawModeCalls (makeRaw : τ → τ) (original : τ) : List (TtyEvent τ) :=
  [⟨.tcgetattr, .ok original⟩, ⟨.tcflush, .ok ()⟩,
    ⟨.tcsetattr .body (makeRaw original), .ok ()⟩]

/-- **How a program in raw mode ends**: it is refused while the attributes are as they were, it
loses the handle for its guard, or it runs and the guard follows. -/
theorem withRawMode_ends {makeRaw : τ → τ} {body : TtyProg τ α} {r : Except AppError α}
    (h : (withRawMode makeRaw body).Ends events r) :
    ((∀ e ∈ events, Quiet (fun _ => False) e) ∧ ∃ error, r = .error error) ∨
      ∃ original,
        (∃ error, events = rawModeCalls makeRaw original ++ [⟨.tryClone, .error error⟩] ∧
          r = .error (.io error)) ∨
        ∃ inner answer, body.Ends inner r ∧
          events = rawModeCalls makeRaw original ++ ⟨.tryClone, .ok ()⟩ ::
            (inner ++ [⟨.tcsetattr .restore original, answer⟩]) := by
  rcases sys_mapError_bind_ends h with ⟨a, error, rfl, rfl, hr⟩ | ⟨a, original, e₁, rfl, rfl, h₁⟩
  · exact Or.inl ⟨by simp [Quiet], _, hr⟩
  rcases sys_mapError_bind_ends h₁ with ⟨a, error, rfl, rfl, hr⟩ | ⟨a, u, e₂, rfl, rfl, h₂⟩
  · exact Or.inl ⟨by simp [Quiet], _, hr⟩
  rcases sys_mapError_bind_ends h₂ with ⟨a, error, rfl, rfl, hr⟩ | ⟨a, u, e₃, rfl, rfl, h₃⟩
  · exact Or.inl ⟨by simp [Quiet], _, hr⟩
  rcases sys_mapError_bind_ends h₃ with ⟨a, error, rfl, rfl, hr⟩ | ⟨a, u, e₄, rfl, rfl, h₄⟩
  · exact Or.inr ⟨original, Or.inl ⟨error, rfl, hr⟩⟩
  -- the guard exists from here on
  obtain ⟨inner, r', dropped, _, hinner, hdrop, rfl, hr⟩ := Prog.finally_ends_iff.1 h₄
  obtain ⟨_, hset, rfl⟩ := Prog.ignored_ends_iff.1 hdrop
  obtain ⟨answer, rfl, -⟩ := tcsetattr_ends_iff.1 hset
  obtain rfl : r = r' := hr
  exact Or.inr ⟨original, Or.inr ⟨inner, answer, hinner, rfl⟩⟩

end Ends

/-! ### What holds of every call -/

section Every

variable {α β : Type} {P Q : TtyEvent τ → Prop} {x : TtyProg τ α} {f : α → TtyProg τ β}

/-- Every call of a program satisfies `P`. -/
def Every (P : TtyEvent τ → Prop) (x : TtyProg τ α) : Prop :=
  ∀ past, Prog.Always (fun _ e => P e) past x

theorem Every.of_reaches {events : List (TtyEvent τ)} {left : TtyProg τ α} (h : Every P x)
    (hrun : x.Reaches events left) : ∀ e ∈ events, P e := by
  intro e hmem
  obtain ⟨e₁, e₂, hsplit⟩ := List.append_of_mem hmem
  exact (h []).of_reaches hrun hsplit

theorem Every.mono (h : Every P x) (hPQ : ∀ e, P e → Q e) : Every Q x :=
  fun past => (h past).mono fun _ => hPQ

theorem Every.pure {a : α} : Every P (pure a : TtyProg τ α) := fun _ => trivial

theorem Every.fail {error : AppError} : Every P (Prog.fail error : TtyProg τ α) :=
  fun _ => trivial

theorem Every.unfinished : Every P (Prog.unfinished : TtyProg τ α) := fun _ => trivial

theorem Every.ofExcept {result : Except AppError α} :
    Every P (Prog.ofExcept result : TtyProg τ α) := fun _ => Prog.Always.ofExcept

theorem Every.bind (hx : Every P x) (hf : ∀ a, Every P (f a)) : Every P (x >>= f) :=
  fun past => (hx past).bind fun _ a _ => hf a _

/-- What follows a computation without calls may use its result. -/
theorem Every.ofExcept_bind {q : Except AppError α} (hf : ∀ a, q = .ok a → Every P (f a)) :
    Every P (Prog.ofExcept q >>= f) := by
  cases q with
  | ok a => exact hf a rfl
  | error error => exact Every.fail

theorem Every.sys {op : TtyCall τ} (h : ∀ answer, P ⟨op, answer⟩) : Every P (sys op) :=
  fun _ => Prog.Always.call h

theorem Every.mapError {op : TtyCall τ} {ε : Type} {g : op.Answer → Except ε α}
    {error : ε → AppError} (h : ∀ answer, P ⟨op, answer⟩) :
    Every P (Calls.sys op >>= fun a => Prog.ofExcept ((g a).mapError error)) :=
  Every.bind (Every.sys h) fun _ => Every.ofExcept

theorem Every.result (h : Every P x) : Every P x.result := fun past => (h past).result

theorem Every.ignored {x : TtyProg τ Unit} (h : Every P x) : Every P x.ignored :=
  Every.bind h.result fun _ => Every.pure

theorem Every.finally_ {cleanup : TtyProg τ Unit} (h : Every P x) (hcleanup : Every P cleanup) :
    Every P (x.finally_ cleanup) :=
  Every.bind h.result fun _ => Every.bind hcleanup fun _ => Every.ofExcept

theorem Every.onFailure {cleanup : TtyProg τ Unit} (h : Every P x) (hcleanup : Every P cleanup) :
    Every P (x.onFailure cleanup) := by
  refine Every.bind h.result fun r => ?_
  cases r with
  | ok a => exact Every.pure
  | error error => exact Every.bind hcleanup fun _ => Every.fail

/-- Raw mode, when its own calls satisfy `P`. -/
theorem Every.withRawMode {makeRaw : τ → τ} (hget : ∀ answer, P ⟨.tcgetattr, answer⟩)
    (hflush : ∀ answer, P ⟨.tcflush, answer⟩)
    (hset : ∀ site termios answer, P ⟨.tcsetattr site termios, answer⟩)
    (hclone : ∀ answer, P ⟨.tryClone, answer⟩) (h : Every P x) :
    Every P (withRawMode makeRaw x) :=
  Every.bind (Every.mapError hget) fun _ => Every.bind (Every.mapError hflush) fun _ =>
    Every.bind (Every.mapError (hset _ _)) fun _ => Every.bind (Every.mapError hclone) fun _ =>
      h.finally_ (Every.mapError (hset _ _)).ignored

end Every

/-! ### Quiet programs -/

section Quiet

variable {allowed : Bytes → Prop}

theorem quiet_writeAll {bytes : Bytes} (h : allowed bytes) :
    Every (Quiet allowed) (writeAll .body bytes : TtyProg τ Unit) :=
  Every.mapError fun _ => ⟨rfl, h⟩

theorem quiet_flush : Every (Quiet allowed) (flush .body : TtyProg τ Unit) :=
  Every.mapError fun _ => rfl

theorem quiet_read {capacity : ℕ} : Every (Quiet allowed) (read capacity : TtyProg τ Bytes) :=
  Every.mapError fun _ => trivial

/-- The loop of an exchange makes only quiet calls. -/
theorem quiet_exchangeLoop {stopWhen : Bytes → Option StopReason}
    {maxResponseBytes deadline turns : ℕ} {response : Bytes} :
    Every (Quiet allowed) (exchangeLoop stopWhen maxResponseBytes deadline turns response :
      TtyProg τ (Bytes × StopReason)) := by
  induction turns generalizing response with
  | zero => exact Every.unfinished
  | succ turns ih =>
      rw [exchangeLoop]
      split
      · exact Every.pure
      refine Every.bind (Every.sys fun _ => trivial) fun now => ?_
      split
      · exact Every.pure
      refine Every.bind (Every.sys fun _ => trivial) fun before => ?_
      refine Every.bind (Every.sys fun _ => trivial) fun polled => ?_
      split
      · exact Every.pure
      · exact ih
      · exact Every.fail
      · refine Every.bind quiet_read fun bytes => ?_
        split_ifs
        · exact Every.pure
        · exact Every.fail
        · exact ih

theorem quiet_exchangeInRawMode {turns timeout maxResponseBytes : ℕ} {request : Bytes}
    {stopWhen : Bytes → Option StopReason} (h : allowed request) :
    Every (Quiet allowed) (exchangeInRawMode turns request timeout maxResponseBytes stopWhen :
      TtyProg τ LiveExchange) := by
  refine Every.bind (quiet_writeAll h) fun _ => ?_
  refine Every.bind quiet_flush fun _ => ?_
  refine Every.bind (Every.sys fun _ => trivial) fun started => ?_
  split
  · exact Every.fail
  · refine Every.bind quiet_exchangeLoop fun _ => ?_
    exact Every.bind (Every.sys fun _ => trivial) fun _ => Every.pure

end Quiet

/-! ### The turns of the loop -/

section Turns

variable {stopWhen : Bytes → Option StopReason} {maxResponseBytes deadline turns : ℕ}

/-- **The calls of a loop that returns**, turn by turn. -/
inductive LoopReturns (stopWhen : Bytes → Option StopReason) (maxResponseBytes deadline : ℕ) :
    Bytes → List (TtyEvent τ) → Bytes → StopReason → Prop
  | stopped {response : Bytes} {reason : StopReason} :
      stopNow stopWhen maxResponseBytes response = some reason →
        LoopReturns stopWhen maxResponseBytes deadline response [] response reason
  | late {response : Bytes} {now : ℕ} : stopNow stopWhen maxResponseBytes response = none →
      deadline ≤ now →
        LoopReturns stopWhen maxResponseBytes deadline response [⟨.instantNow, now⟩] response
          .timeout
  | silent {response : Bytes} {now before : ℕ} :
      stopNow stopWhen maxResponseBytes response = none → now < deadline →
        LoopReturns stopWhen maxResponseBytes deadline response
          [⟨.instantNow, now⟩, ⟨.instantNow, before⟩,
            ⟨.poll (remainingTimeout deadline before), .ok 0⟩] response .timeout
  | interrupted {response final : Bytes} {now before : ℕ} {reason : StopReason}
      {events : List (TtyEvent τ)} : stopNow stopWhen maxResponseBytes response = none →
      now < deadline → LoopReturns stopWhen maxResponseBytes deadline response events final reason →
        LoopReturns stopWhen maxResponseBytes deadline response
          (⟨.instantNow, now⟩ :: ⟨.instantNow, before⟩ ::
            ⟨.poll (remainingTimeout deadline before), .error .EINTR⟩ :: events) final reason
  | ended {response : Bytes} {now before count : ℕ} :
      stopNow stopWhen maxResponseBytes response = none → now < deadline →
        LoopReturns stopWhen maxResponseBytes deadline response
          [⟨.instantNow, now⟩, ⟨.instantNow, before⟩,
            ⟨.poll (remainingTimeout deadline before), .ok (count + 1)⟩,
            ⟨.read (min (maxResponseBytes - response.length) 4096), .ok []⟩] response .endOfInput
  | received {response bytes final : Bytes} {now before count : ℕ} {reason : StopReason}
      {events : List (TtyEvent τ)} : stopNow stopWhen maxResponseBytes response = none →
      now < deadline → bytes ≠ [] →
      bytes.length ≤ min (maxResponseBytes - response.length) 4096 →
      LoopReturns stopWhen maxResponseBytes deadline (response ++ bytes) events final reason →
        LoopReturns stopWhen maxResponseBytes deadline response
          (⟨.instantNow, now⟩ :: ⟨.instantNow, before⟩ ::
            ⟨.poll (remainingTimeout deadline before), .ok (count + 1)⟩ ::
            ⟨.read (min (maxResponseBytes - response.length) 4096), .ok bytes⟩ :: events)
          final reason

/-- **A loop that returns makes these calls.** -/
theorem loopReturns_of_returns {response final : Bytes} {reason : StopReason}
    {events : List (TtyEvent τ)}
    (h : (exchangeLoop stopWhen maxResponseBytes deadline turns response).Returns events
      (final, reason)) :
    LoopReturns stopWhen maxResponseBytes deadline response events final reason := by
  induction turns generalizing response events with
  | zero => exact absurd h Prog.not_unfinished_returns
  | succ turns ih =>
      rw [exchangeLoop] at h
      cases hstop : stopNow stopWhen maxResponseBytes response with
      | some reason' =>
          simp only [hstop, Prog.pure_eq, Prog.ret_returns_iff, Prod.mk.injEq] at h
          obtain ⟨rfl, rfl, rfl⟩ := h
          exact .stopped hstop
      | none =>
          simp only [hstop, Prog.bind_returns_iff, Prog.call_returns_iff] at h
          obtain ⟨_, now, e₁, rfl, h, rfl⟩ := h
          split_ifs at h with hdeadline
          · simp only [Prog.pure_eq, Prog.ret_returns_iff, Prod.mk.injEq] at h
            obtain ⟨rfl, rfl, rfl⟩ := h
            exact .late hstop hdeadline
          · simp only [Prog.bind_returns_iff, Prog.call_returns_iff] at h
            obtain ⟨_, before, _, rfl, ⟨_, polled, e₂, rfl, h, rfl⟩, rfl⟩ := h
            have hnow := Nat.not_le.1 hdeadline
            cases polled with
            | error error =>
                cases error with
                | EINTR => exact .interrupted hstop hnow (ih h)
                | other code => exact absurd h Prog.not_fail_returns
            | ok count =>
                cases count with
                | zero =>
                    simp only [Prog.pure_eq, Prog.ret_returns_iff, Prod.mk.injEq] at h
                    obtain ⟨rfl, rfl, rfl⟩ := h
                    exact .silent hstop hnow
                | succ count =>
                    simp only [read, Prog.bind_returns_iff, Prog.call_returns_iff,
                      Prog.ofExcept_returns_iff] at h
                    obtain ⟨_, bytes, e₃, ⟨_, answer, _, rfl, ⟨rfl, hanswer⟩, rfl⟩, h, rfl⟩ := h
                    cases answer with
                    | error message => cases hanswer
                    | ok bytes' =>
                        obtain rfl := Except.ok.inj hanswer
                        split_ifs at h with hempty hexceeds
                        · simp only [Prog.pure_eq, Prog.ret_returns_iff, Prod.mk.injEq] at h
                          obtain ⟨rfl, rfl, rfl⟩ := h
                          obtain rfl := List.length_eq_zero_iff.1 hempty
                          exact .ended hstop hnow
                        · exact absurd h Prog.not_fail_returns
                        · have hne : bytes' ≠ [] := fun hnil => hempty (by rw [hnil]; rfl)
                          exact .received hstop hnow hne (Nat.not_lt.1 hexceeds) (ih h)

end Turns

/-! ### The exchange on scripts -/

/-- What a call does to the terminal as an exchange on a script shows it. -/
def ttyOp? : TtyEvent τ → Option TtyOp
  | ⟨.tcflush, .ok ()⟩ => some .flush
  | ⟨.writeAll _ _, answer⟩ => some (.write (acceptedBytes answer))
  | ⟨.read _, .ok []⟩ => none
  | ⟨.read _, .ok bytes⟩ => some (.read bytes)
  | _ => none

def ttyOps (events : List (TtyEvent τ)) : List TtyOp := events.filterMap ttyOp?

@[simp] theorem ttyOps_append (e₁ e₂ : List (TtyEvent τ)) :
    ttyOps (e₁ ++ e₂) = ttyOps e₁ ++ ttyOps e₂ := List.filterMap_append

section Refines

variable {stopWhen : Bytes → Option StopReason} {maxResponseBytes deadline turns : ℕ}
  {response final bytes : Bytes} {reason : StopReason} {tick : Tick} {ticks : List Tick}
  {ops : List TtyOp} {events : List (TtyEvent τ)}

/-- The three ways in which a turn on a script goes on. -/
theorem exchangeLoop_stop (hstop : stopNow stopWhen maxResponseBytes response = none)
    (hturn : pollAndRead maxResponseBytes deadline response tick = .stop reason) :
    (TermInterop.exchangeLoop stopWhen maxResponseBytes deadline response [tick]).Returns []
      (response, reason) := by
  rw [TermInterop.exchangeLoop, hstop]
  simp only [hturn]
  exact Traced.pure_returns_iff.2 ⟨rfl, rfl⟩

theorem exchangeLoop_retry (hstop : stopNow stopWhen maxResponseBytes response = none)
    (hturn : pollAndRead maxResponseBytes deadline response tick = .retry)
    (h : (TermInterop.exchangeLoop stopWhen maxResponseBytes deadline response ticks).Returns ops
      (final, reason)) :
    (TermInterop.exchangeLoop stopWhen maxResponseBytes deadline response (tick :: ticks)).Returns
      ops (final, reason) := by
  rw [TermInterop.exchangeLoop, hstop]
  simpa only [hturn] using h

theorem exchangeLoop_receive (hstop : stopNow stopWhen maxResponseBytes response = none)
    (hturn : pollAndRead maxResponseBytes deadline response tick = .receive bytes)
    (h : (TermInterop.exchangeLoop stopWhen maxResponseBytes deadline (response ++ bytes)
      ticks).Returns ops (final, reason)) :
    (TermInterop.exchangeLoop stopWhen maxResponseBytes deadline response (tick :: ticks)).Returns
      (.read bytes :: ops) (final, reason) := by
  rw [TermInterop.exchangeLoop, hstop]
  simp only [hturn, Traced.bind_returns_iff, Traced.emit_returns_iff]
  exact ⟨_, (), ops, rfl, h, rfl⟩

/-- **The turns of the loop are those of the loop on scripts.** -/
theorem exchangeLoop_refines
    (h : LoopReturns stopWhen maxResponseBytes deadline response events final reason) :
    ∃ ticks, (TermInterop.exchangeLoop stopWhen maxResponseBytes deadline response ticks).Returns
      (ttyOps events) (final, reason) := by
  induction h with
  | stopped hstop =>
      refine ⟨[], ?_⟩
      rw [TermInterop.exchangeLoop, hstop]
      exact Traced.pure_returns_iff.2 ⟨rfl, rfl⟩
  | @late response now hstop hdeadline =>
      have hturn : pollAndRead maxResponseBytes deadline response ⟨now, .timeout⟩ =
          .stop .timeout := by
        rw [pollAndRead, if_pos hdeadline]
      exact ⟨_, exchangeLoop_stop hstop hturn⟩
  | @silent response now before hstop hdeadline =>
      have hturn : pollAndRead maxResponseBytes deadline response ⟨now, .timeout⟩ =
          .stop .timeout := by
        rw [pollAndRead, if_neg (Nat.not_le.2 hdeadline)]
      exact ⟨_, exchangeLoop_stop hstop hturn⟩
  | @interrupted response final now before reason events hstop hdeadline hrest ih =>
      obtain ⟨ticks, hticks⟩ := ih
      have hturn : pollAndRead maxResponseBytes deadline response ⟨now, .failed .EINTR⟩ =
          .retry := by
        rw [pollAndRead, if_neg (Nat.not_le.2 hdeadline)]
      exact ⟨_, exchangeLoop_retry hstop hturn hticks⟩
  | @ended response now before count hstop hdeadline =>
      have hturn : pollAndRead maxResponseBytes deadline response (arrives now []) =
          .stop .endOfInput := by
        rw [pollAndRead, arrives, if_neg (Nat.not_le.2 hdeadline)]
        rfl
      exact ⟨_, exchangeLoop_stop hstop hturn⟩
  | @received response bytes final now before count reason events hstop hdeadline hbytes hfits hrest
      ih =>
      obtain ⟨ticks, hticks⟩ := ih
      have hlength : bytes.length ≠ 0 := fun h => hbytes (List.length_eq_zero_iff.1 h)
      have hturn : pollAndRead maxResponseBytes deadline response (arrives now bytes) =
          .receive bytes := by
        rw [pollAndRead, arrives, if_neg (Nat.not_le.2 hdeadline)]
        simp only [if_neg hlength, if_neg (Nat.not_lt.2 hfits)]
      have hreceive := exchangeLoop_receive hstop hturn hticks
      cases bytes with
      | nil => exact absurd rfl hbytes
      | cons b bs => exact ⟨_, hreceive⟩

end Refines

/-! ### The calls of an exchange -/

/-- The calls of an exchange that returns, around those of its loop. -/
def exchangeCalls (makeRaw : τ → τ) (ttyPath request : Bytes) (original : τ) (started : ℕ)
    (loop : List (TtyEvent τ)) (finished : ℕ) (restored : Except Errno Unit) : List (TtyEvent τ) :=
  ⟨.openTty ttyPath, .ok ()⟩ :: (rawModeCalls makeRaw original ++ ⟨.tryClone, .ok ()⟩ ::
    (⟨.writeAll .body request, .ok ()⟩ :: ⟨.flush .body, .ok ()⟩ :: ⟨.instantNow, started⟩ ::
      (loop ++ [⟨.instantNow, finished⟩]) ++ [⟨.tcsetattr .restore original, restored⟩]))

section Returns

variable {makeRaw : τ → τ} {turns timeout maxResponseBytes : ℕ} {ttyPath request : Bytes}
  {stopWhen : Bytes → Option StopReason} {events : List (TtyEvent τ)} {live : LiveExchange}

/-- **The calls of an exchange that returns**, and where its result is from. -/
theorem calls_of_executeTtyExchange
    (h : (executeTtyExchange makeRaw turns ttyPath request timeout maxResponseBytes
      stopWhen).Returns events live) :
    ∃ original started deadline loop finished restored, timeout ≠ 0 ∧ maxResponseBytes ≠ 0 ∧
      checkedAdd started timeout = some deadline ∧
      (exchangeLoop stopWhen maxResponseBytes deadline turns []).Returns loop
        (live.response, live.stopReason) ∧
      live.elapsed = finished - started ∧
      events = exchangeCalls makeRaw ttyPath request original started loop finished restored := by
  rw [executeTtyExchange] at h
  split_ifs at h with htimeout hmax
  · exact absurd h Prog.not_fail_returns
  · exact absurd h Prog.not_fail_returns
  rcases sys_mapError_bind_ends (Prog.ends_ok_iff.2 h) with
    ⟨_, _, -, -, hr⟩ | ⟨opened, _, e₁, hopened, rfl, hraw⟩
  · cases hr
  obtain rfl : opened = .ok () := hopened
  rcases withRawMode_ends hraw with
    ⟨-, _, hr⟩ | ⟨original, ⟨_, -, hr⟩ | ⟨inner, restored, hbody, rfl⟩⟩
  · cases hr
  · cases hr
  rcases sys_mapError_bind_ends hbody with ⟨_, _, -, -, hr⟩ | ⟨_, _, e₂, rfl, rfl, hwritten⟩
  · cases hr
  rcases sys_mapError_bind_ends hwritten with
    ⟨_, _, -, -, hr⟩ | ⟨flushed, _, e₃, hflush, rfl, hflushed⟩
  · cases hr
  obtain rfl : flushed = .ok () := hflush
  obtain ⟨_, started, e₄, hstarted, hrest, rfl⟩ :=
    Prog.bind_returns_iff.1 (Prog.ends_ok_iff.1 hflushed)
  obtain rfl := Prog.call_returns_iff.1 hstarted
  cases hdeadline : checkedAdd started timeout with
  | none => simp [hdeadline] at hrest
  | some deadline =>
      simp only [hdeadline, Prog.bind_returns_iff, Prog.call_returns_iff, Prog.pure_eq,
        Prog.ret_returns_iff] at hrest
      obtain ⟨loop, ⟨response, reason⟩, _, hloop, ⟨_, finished, _, rfl, ⟨rfl, rfl⟩, rfl⟩, rfl⟩ :=
        hrest
      exact ⟨original, started, deadline, loop, finished, restored, htimeout, hmax, hdeadline,
        hloop, rfl, rfl⟩

/-- An exchange whose loop returns makes these calls. -/
theorem executeTtyExchange_of_calls {original : τ} {started deadline finished : ℕ}
    {loop : List (TtyEvent τ)} {restored : Except Errno Unit} {response : Bytes}
    {reason : StopReason} (htimeout : timeout ≠ 0) (hmax : maxResponseBytes ≠ 0)
    (hdeadline : checkedAdd started timeout = some deadline)
    (hloop : (exchangeLoop stopWhen maxResponseBytes deadline turns []).Returns loop
      (response, reason)) :
    (executeTtyExchange makeRaw turns ttyPath request timeout maxResponseBytes stopWhen).Returns
      (exchangeCalls makeRaw ttyPath request original started loop finished restored)
      ⟨response, finished - started, reason⟩ := by
  have hbody : (exchangeInRawMode turns request timeout maxResponseBytes stopWhen :
      TtyProg τ LiveExchange).Ends (⟨.writeAll .body request, .ok ()⟩ :: ⟨.flush .body, .ok ()⟩ ::
        ⟨.instantNow, started⟩ :: (loop ++ [⟨.instantNow, finished⟩]))
      (.ok ⟨response, finished - started, reason⟩) := by
    have hnow : (do
        let (response, stopReason) ← exchangeLoop stopWhen maxResponseBytes deadline turns []
        let finished ← sys .instantNow
        pure ⟨response, finished - started, stopReason⟩ : TtyProg τ LiveExchange).Ends
        (loop ++ [⟨.instantNow, finished⟩]) (.ok ⟨response, finished - started, reason⟩) :=
      Prog.bind_ends_iff.2 (Or.inr ⟨loop, (response, reason), _, hloop,
        Prog.perform_ends_iff.2 ⟨finished, [], rfl, Prog.ret_ends_iff.2 ⟨rfl, rfl⟩⟩, rfl⟩)
    refine Prog.perform_ends_iff.2 ⟨.ok (), _, rfl, ?_⟩
    refine Prog.perform_ends_iff.2 ⟨.ok (), _, rfl, ?_⟩
    refine Prog.perform_ends_iff.2 ⟨started, _, rfl, ?_⟩
    change (match checkedAdd started timeout with
      | none => Prog.fail .timeoutOutOfRange
      | some deadline => _ : TtyProg τ LiveExchange).Ends _ _
    rw [hdeadline]
    exact hnow
  rw [executeTtyExchange, if_neg htimeout, if_neg hmax]
  refine Prog.Reaches.perform (Prog.Reaches.perform (Prog.Reaches.perform
    (Prog.Reaches.perform (Prog.Reaches.perform ?_))))
  have hdrop : (tcsetattr .restore original : TtyProg τ Unit).ignored.Ends
      [⟨.tcsetattr .restore original, restored⟩] (.ok ()) :=
    Prog.ignored_ends_iff.2 ⟨_, tcsetattr_ends_iff.2 ⟨restored, rfl, rfl⟩, rfl⟩
  exact Prog.finally_ends_iff.2 ⟨_, _, _, _, hbody, hdrop, rfl, rfl⟩

/-- **The calls of an exchange are those of the exchange on scripts.** -/
theorem executeTtyExchange_refines
    (h : (executeTtyExchange makeRaw turns ttyPath request timeout maxResponseBytes
      stopWhen).Returns events live) :
    ∃ session, (TermInterop.executeTtyExchange session request timeout maxResponseBytes
      stopWhen).Returns (ttyOps events) live := by
  obtain ⟨original, started, deadline, loop, finished, restored, htimeout, hmax, hdeadline, hloop,
    helapsed, rfl⟩ := calls_of_executeTtyExchange h
  obtain ⟨ticks, hticks⟩ := exchangeLoop_refines (loopReturns_of_returns hloop)
  have hops : ttyOps (exchangeCalls makeRaw ttyPath request original started loop finished
      restored) = .flush :: .write request :: ttyOps loop := by
    have hlast : ttyOps ([⟨.instantNow, finished⟩] ++
        [⟨.tcsetattr .restore original, restored⟩] : List (TtyEvent τ)) = [] := rfl
    change .flush :: .write request :: ttyOps ((loop ++ [⟨.instantNow, finished⟩]) ++
      [⟨.tcsetattr .restore original, restored⟩]) = _
    rw [List.append_assoc, ttyOps_append, hlast, List.append_nil]
  have hlive : ⟨live.response, finished - started, live.stopReason⟩ = live := by rw [← helapsed]
  refine ⟨⟨.ok (), .ok (), started, ticks, finished⟩, ?_⟩
  simp only [TermInterop.executeTtyExchange, if_neg htimeout, if_neg hmax,
    Traced.bind_returns_iff, Traced.ofExcept_returns_iff, Traced.emit_returns_iff,
    hdeadline, Traced.pure_returns_iff]
  refine ⟨[], (), _, ⟨rfl, trivial⟩, ⟨_, (), _, rfl, ⟨[], (), _, ⟨rfl, trivial⟩, ⟨_, (), _, rfl,
    ⟨_, (live.response, live.stopReason), [], hticks, ⟨rfl, hlive⟩, rfl⟩, rfl⟩, rfl⟩, rfl⟩, ?_⟩
  rw [hops]
  simp

end Returns

end Calls

end TermInterop
