/-
Replies that arrive too late.

The terminal answers every query in order and after any delay, and the user presses no key.  A
preview asks before it takes over the screen and flushes the input once when it does.  Bytes that
are in flight at that moment arrive later, and the preview takes the first of them for a key: a
reply begins with the escape byte, which closes the preview.

The theorem says that this is the only way to go wrong.  What the preview draws asks nothing, so no
byte arrives on the screen that was not already in flight when it was entered.

Main definitions:

* `TermInterop.fifoTerminal` — the terminal;
* `TermInterop.ScreenRun` — a preview that has entered its screen;
* `TermInterop.NoKey` — the preview is told of no key.

Main results:

* `TermInterop.unasking_program` — a preview on its screen asks nothing;
* `TermInterop.no_key_of_nothing_in_flight` — **when no reply is taken for a key**;
* `TermInterop.late_reply_closes_preview` — a run in which one is.
-/

import TermInterop.Responder
import TermInterop.Unanswered

set_option relaxedAutoImplicit false
set_option autoImplicit false

namespace TermInterop

open Calls (ttyOps ttyOp? Every)

/-! ### The terminal -/

/-- **The terminal**: it answers what contains a query, with any reply, and nothing else. -/
def fifoTerminal : Lts TerminalState TtyOp where
  silent s t := ∃ arrived, s.inFlight = arrived ++ t.inFlight ∧
    t.delivered = s.delivered ++ arrived
  step s op t :=
    match op with
    | .flush => t = { s with delivered := [] }
    | .write bytes =>
        (Asks bytes ∧ ∃ reply, t = { s with inFlight := s.inFlight ++ reply }) ∨
          (¬ Asks bytes ∧ t = s)
    | .read bytes => ∃ rest, s.delivered = bytes ++ rest ∧ t = { s with delivered := rest }

/-- **A preview that has entered its screen**: the setup, the command up to the flush of the input,
and what has followed so far. -/
structure ScreenRun {τ : Type} (makeRaw : τ → τ) (turns : ℕ) (b64 : Base64.Codec)
    (library : ImageLibrary) (environment : PreviewEnvironment) (args : PreviewArgs)
    (path : PathBuf) (bytes : Bytes) (before after : List (TtyEvent τ)) (s t : TerminalState) :
    Prop where
  /-- The operations from the start of the preview to the flush. -/
  started : ∃ ops command left s₀, (setup b64 library environment args path bytes).Returns ops
      command ∧
    (command.program makeRaw turns).Reaches (before ++ ⟨.tcflush, .ok ()⟩ :: after) left ∧
    fifoTerminal.Run s₀ (ops ++ ttyOps before) s
  /-- The operations after the flush. -/
  entered : fifoTerminal.Run { s with delivered := [] } (ttyOps after) t

/-- No part of a run is a wait for a key that returns one. -/
def NoKey {τ : Type} (events : List (TtyEvent τ)) : Prop :=
  ∀ deadline turns segment key,
    (Calls.readKey deadline turns).Returns segment (some key) → ¬ segment <:+: events

section LateReplies

variable {τ : Type}

/-- A key is the first byte of a read. -/
theorem read_of_readKey {deadline : Option ℕ} {turns : ℕ} {events : List (TtyEvent τ)} {key : UInt8}
    (h : (Calls.readKey deadline turns).Returns events (some key)) :
    ∃ capacity rest, ⟨.read capacity, .ok (key :: rest)⟩ ∈ events := by
  induction turns generalizing events with
  | zero => exact absurd h Prog.not_unfinished_returns
  | succ turns ih =>
      rw [Calls.readKey] at h
      obtain ⟨e₁, isExpired, e₂, -, hrest, rfl⟩ := Prog.bind_returns_iff.1 h
      split at hrest
      · obtain ⟨-, hkey⟩ := Prog.ret_returns_iff.1 hrest
        cases hkey
      · obtain ⟨e₃, polled, e₄, -, hturn, rfl⟩ := Prog.bind_returns_iff.1 hrest
        have hretry : (Calls.readKey deadline turns).Returns e₄ (some key) →
            ∃ capacity rest, ⟨.read capacity, .ok (key :: rest)⟩ ∈ e₁ ++ (e₃ ++ e₄) := by
          intro hagain
          obtain ⟨capacity, rest, hmem⟩ := ih hagain
          exact ⟨capacity, rest, by simp [hmem]⟩
        split at hturn
        · exact hretry hturn
        · exact hretry hturn
        · exact absurd hturn Prog.not_fail_returns
        · simp only [Calls.read, Prog.bind_returns_iff, Prog.call_returns_iff,
            Prog.ofExcept_returns_iff, Prog.pure_eq, Prog.ret_returns_iff] at hturn
          obtain ⟨_, bytes, _, ⟨_, answer, _, rfl, ⟨rfl, hanswer⟩, rfl⟩, ⟨rfl, hkey⟩, rfl⟩ := hturn
          cases answer with
          | error message => cases hanswer
          | ok bytes' =>
              obtain rfl := Except.ok.inj hanswer
              obtain ⟨rest, rfl⟩ := List.head?_eq_some_iff.1 hkey.symm
              exact ⟨32, rest, by simp⟩

/-! ### A preview on its screen asks nothing -/

/-- A call that does not write a query. -/
def Unasking : TtyEvent τ → Prop
  | ⟨.writeAll _ _, answer⟩ => ¬ Asks (acceptedBytes answer)
  | _ => True

/-- What is accepted of a text without a query contains none. -/
theorem not_asks_acceptedBytes {bytes : Bytes} (h : Heads.Free queryHeads bytes)
    (answer : Except (WriteFailure bytes) Unit) : ¬ Asks (acceptedBytes answer) := by
  rintro ⟨head, hmem, hinfix⟩
  have haccepted : acceptedBytes answer <+: bytes := by
    cases answer with
    | ok u => exact List.prefix_rfl
    | error failure => exact List.take_prefix _ _
  exact not_asks_of_free h ⟨head, hmem, hinfix.trans haccepted.isInfix⟩

theorem unasking_of_quiet {e : TtyEvent τ} (h : Quiet (Heads.Free queryHeads) e) : Unasking e := by
  obtain ⟨op, answer⟩ := e
  cases op with
  | writeAll site bytes => exact not_asks_acceptedBytes h.2 answer
  | _ => trivial

theorem unasking_writeAll {site : Site} {bytes : Bytes} (h : Heads.Free queryHeads bytes) :
    Calls.Every Unasking (Calls.writeAll site bytes : TtyProg τ Unit) :=
  Calls.Every.mapError fun answer => not_asks_acceptedBytes h answer

/-- A program on its screen asks nothing when it does not draw a query. -/
theorem unasking_withScreen {makeRaw : τ → τ} {delete : Bytes} {body : TtyProg τ Unit}
    (hdelete : Heads.Free queryHeads delete) (hbody : Every (Quiet (Heads.Free queryHeads)) body) :
    Every Unasking (Calls.withScreen makeRaw delete body) := by
  have hflush : ∀ site, Every Unasking (Calls.flush site : TtyProg τ Unit) :=
    fun site => Every.mapError fun _ => trivial
  have hrestore : Every Unasking (Calls.restoreScreen delete : TtyProg τ Unit) := by
    refine Every.bind (unasking_writeAll hdelete) fun _ => ?_
    exact Every.bind (unasking_writeAll (by decide)) fun _ => hflush _
  refine Every.withRawMode (fun _ => trivial) (fun _ => trivial) (fun _ _ _ => trivial)
    (fun _ => trivial) ?_
  refine Every.bind (unasking_writeAll (by decide)) fun _ => ?_
  refine Every.bind (hflush _) fun _ => ?_
  exact Every.onFailure (Every.bind (hbody.mono fun _ => unasking_of_quiet) fun _ => hrestore)
    hrestore.ignored

/-- **A preview on its screen asks nothing**, whatever the artifact is. -/
theorem unasking_program {b64 : Base64.Codec} {library : ImageLibrary}
    {environment : PreviewEnvironment} {args : PreviewArgs} {path : PathBuf} {bytes : Bytes}
    {ops : List TtyOp} {command : TerminalCommand} (hlibrary : SixelStrings library)
    (h : (setup b64 library environment args path bytes).Returns ops command)
    (makeRaw : τ → τ) (turns : ℕ) : Every Unasking (command.program makeRaw turns) := by
  have hopen : Every Unasking (Calls.openTty args.screen.tty : TtyProg τ Unit) :=
    Every.mapError fun _ => trivial
  rcases setup_returns h with
    ⟨content, viewport, hsanitized, rfl⟩ | ⟨artifact, viewport, renderer, transport, rfl⟩
  · refine Every.bind hopen fun _ => unasking_withScreen Heads.Free.nil ?_
    refine Calls.quiet_pageText fun offset => free_renderTextPage offset _ ?_ ?_
    · exact escape_notMem_safeLabel path _
    · exact fun row hrow => escape_notMem_row hsanitized hrow
  · refine Every.bind Every.ofExcept fun placement => ?_
    refine Every.ofExcept_bind fun image himage => ?_
    refine Every.bind hopen fun _ => unasking_withScreen (free_imageDelete _ _ _) ?_
    refine Calls.quiet_drawRaster (free_rasterPosition _ _) ?_ (free_rasterStatus _ _ _)
    exact free_transportPayload (free_logicalImage hlibrary himage) transport

/-! ### Nothing arrives that was not in flight -/

/-- What a call that asks nothing shows of itself. -/
theorem ttyOp?_of_unasking {e : TtyEvent τ} {bytes : Bytes} (h : Unasking e)
    (hop : ttyOp? e = some (.write bytes)) : ¬ Asks bytes := by
  obtain ⟨op, answer⟩ := e
  cases op with
  | writeAll site written =>
      obtain rfl := TtyOp.write.inj (Option.some.inj hop)
      exact h
  | tcflush =>
      cases answer <;> cases hop
  | read capacity =>
      rcases answer with message | ⟨_ | ⟨b, bs⟩⟩ <;> cases hop
  | _ => cases hop

/-- **Nothing is read when nothing is on its way.** -/
theorem reads_of_nothing_pending {s t : TerminalState} {events : List (TtyEvent τ)}
    (hpending : s.pending = []) (hrun : fifoTerminal.Run s (ttyOps events) t)
    (hunasking : ∀ e ∈ events, Unasking e) :
    ∀ op ∈ ttyOps events, ∀ bytes, op = .read bytes → bytes = [] := by
  have hasks : ∀ bytes, TtyOp.write bytes ∈ ttyOps events → ¬ Asks bytes := by
    intro bytes hmem
    obtain ⟨e, he, hop⟩ := List.mem_filterMap.1 hmem
    exact ttyOp?_of_unasking (hunasking e he) hop
  refine hrun.forall_mem_labels (I := fun u => u.pending = []) ?_ ?_ hpending
  · intro u v hsilent hu
    exact (pending_of_silent hsilent).trans hu
  · intro u v op hmem hstep hu
    obtain ⟨hdelivered, hflight⟩ := List.append_eq_nil_iff.1 hu
    cases op with
    | flush =>
        obtain rfl := hstep
        exact ⟨by simpa [TerminalState.pending] using hflight, fun bytes h => by cases h⟩
    | write bytes =>
        rcases hstep with ⟨hasked, -⟩ | ⟨-, rfl⟩
        · exact absurd hasked (hasks bytes hmem)
        · exact ⟨hu, fun bytes' h => by cases h⟩
    | read bytes =>
        obtain ⟨rest, hread, rfl⟩ := hstep
        rw [hdelivered] at hread
        obtain ⟨rfl, rfl⟩ := List.append_eq_nil_iff.1 hread.symm
        refine ⟨by simpa [TerminalState.pending] using hflight, fun bytes' h => ?_⟩
        exact (TtyOp.read.inj h).symm

end LateReplies

/-- **When no reply is taken for a key**: in every run of a preview, under either transport and
whatever its exchanges have waited for, no wait for a key returns one on the screen, provided that
nothing is in flight when the input is flushed on entering it. -/
theorem no_key_of_nothing_in_flight {τ : Type} (makeRaw : τ → τ) (turns : ℕ) (b64 : Base64.Codec)
    (library : ImageLibrary) (environment : PreviewEnvironment) (args : PreviewArgs)
    (path : PathBuf) (bytes : Bytes) (before after : List (TtyEvent τ)) (s t : TerminalState)
    (hlibrary : SixelStrings library)
    (hrun : ScreenRun makeRaw turns b64 library environment args path bytes before after s t)
    (hflight : s.inFlight = []) : NoKey after := by
  intro deadline turns' segment key hkey hsegment
  obtain ⟨capacity, rest, hread⟩ := read_of_readKey hkey
  obtain ⟨ops, command, left, s₀, hsetup, hreaches, -⟩ := hrun.started
  have hunasking : ∀ e ∈ after, Unasking e := by
    intro e hmem
    exact (unasking_program hlibrary hsetup makeRaw turns).of_reaches hreaches e (by simp [hmem])
  have hpending : TerminalState.pending { s with delivered := [] } = [] := by
    rw [TerminalState.pending, hflight]
    rfl
  have hop : TtyOp.read (key :: rest) ∈ ttyOps after :=
    List.mem_filterMap.2 ⟨_, hsegment.subset hread, rfl⟩
  have hnone := reads_of_nothing_pending hpending hrun.entered hunasking _ hop _ rfl
  cases hnone

/-! ### Two runs -/

/-- A library that decodes no file, and draws nothing. -/
def noImages : ImageLibrary where
  decode _ := .error (.image "unsupported format")
  resize _ _ _ := []
  encodeSixel _ _ _ := .ok (Text.asBytes "\x1bPq\x1b\\")

/-- A preview on a terminal of 80 columns and 24 rows. -/
def sampleScreenArgs : PreviewArgs :=
  { path := [], backend := .auto, transport := .direct, timeoutMs := 750
    transportTimeoutMs := 1500, geometryTimeoutMs := 1, screen := ⟨[], none, 1⟩ }

/-- The system says nothing about pixels, and the geometry exchange waits in vain. -/
def silentGeometry : PreviewEnvironment :=
  { opened := .ok (), terminalSize := some (80, 24), windowSize := none
    geometry := sessionFrom 0 [⟨0, .timeout⟩]
    kgp := environmentOf [] (sessionFrom 0 []), sixel := environmentOf [] (sessionFrom 0 [])
    tmux := false }

/-- The preview of a short text. -/
def sampleCommand : TerminalCommand := .text ⟨[], none, 1⟩ [] "ok" ⟨80, 24, none, none⟩

/-- The page that shows the text. -/
def samplePage : Bytes :=
  renderTextPage (safeLabel [] (saturatingSub 80 2)) (wrappedTextLines "ok" 80) 0 24

/-- The reply to the two inquiries. -/
def geometryReply : Bytes := Text.asBytes "\x1b[4;600;800t\x1b[8;24;80t"

/-- The calls up to the flush of the input. -/
def beforeFlush : List (TtyEvent Bool) :=
  [⟨.openTty [], .ok ()⟩, ⟨.tcgetattr, .ok false⟩]

/-- The calls that show the page, after the flush. -/
def pageCalls : List (TtyEvent Bool) :=
  [⟨.tcsetattr .body true, .ok ()⟩, ⟨.tryClone, .ok ()⟩, ⟨.writeAll .enter enterSequence, .ok ()⟩,
    ⟨.flush .enter, .ok ()⟩, ⟨.writeAll .body samplePage, .ok ()⟩, ⟨.flush .body, .ok ()⟩]

/-- The calls that restore the terminal. -/
def leaveCalls : List (TtyEvent Bool) :=
  restoreCalls [] ++ [⟨.tcsetattr .restore false, .ok ()⟩]

theorem sixelStrings_noImages : SixelStrings noImages := by
  intro rgba width height bytes h
  obtain rfl := Except.ok.inj h
  exact ⟨Text.asBytes "q", by decide, by decide⟩

theorem prepareArtifact_ok :
    prepareArtifact noImages (Text.asBytes "ok") = .ok (.text "ok") := by
  have hsanitized : sanitizeText (Text.asBytes "ok") DEFAULT_MAX_TEXT_BYTES = .ok "ok" := by
    rfl
  have hlength : ¬ DEFAULT_MAX_INPUT_BYTES < (Text.asBytes "ok").length := by decide
  rw [prepareArtifact, decodeRaster, if_neg hlength, noImages, hsanitized]

theorem setup_silentGeometry : (setup Base64.standard noImages silentGeometry sampleScreenArgs []
    (Text.asBytes "ok")).Returns [.flush, .write buildGeometryQuery] sampleCommand := by
  have hviewport : (observeViewport Base64.standard silentGeometry sampleScreenArgs .direct).Returns
      [.flush, .write buildGeometryQuery] ⟨80, 24, none, none⟩ := rfl
  rw [setup, prepareArtifact_ok]
  refine Traced.bind_returns_iff.2 ⟨[], _, _, Traced.ofExcept_returns_iff.2 ⟨rfl, rfl⟩, ?_, rfl⟩
  exact Traced.bind_returns_iff.2 ⟨_, _, [], hviewport, Traced.pure_returns_iff.2 ⟨rfl, rfl⟩, rfl⟩

/-- The inquiries are written, and the answer is on its way. -/
theorem run_geometryQuery {events : List TtyOp} {t : TerminalState}
    (h : fifoTerminal.Run ⟨geometryReply, []⟩ events t) :
    fifoTerminal.Run ⟨[], []⟩ ([.flush, .write buildGeometryQuery] ++ events) t := by
  have hasks : Asks buildGeometryQuery := asks_of_isQuery (Or.inl rfl) .direct
  exact .step rfl <| .step (Or.inl ⟨hasks, geometryReply, rfl⟩) h

/-- What enters and leaves the screen is not answered. -/
theorem step_mode {u : TerminalState} {b : Bytes} (h : b ∈ [enterSequence, [], leaveSequence]) :
    fifoTerminal.step u (.write b) u := by
  have hfree : ∀ bytes ∈ [enterSequence, [], leaveSequence], Heads.Free queryHeads bytes := by
    decide
  exact Or.inr ⟨not_asks_of_free (hfree b h), rfl⟩

/-- The page is not answered. -/
theorem run_pageCalls {u t : TerminalState} {events : List (TtyEvent Bool)}
    (h : fifoTerminal.Run u (ttyOps events) t) :
    fifoTerminal.Run u (ttyOps (pageCalls ++ events)) t := by
  have hpage : fifoTerminal.step u (.write samplePage) u := by
    refine Or.inr ⟨not_asks_of_free ?_, rfl⟩
    refine free_renderTextPage 0 24 (escape_notMem_safeLabel [] _) fun line hline => ?_
    exact escape_notMem_row (prepareArtifact_text prepareArtifact_ok) hline
  exact .step (step_mode (b := enterSequence) (by simp)) <| .step hpage h

theorem run_leaveCalls (u : TerminalState) : fifoTerminal.Run u (ttyOps leaveCalls) u :=
  .step (step_mode (b := []) (by simp)) <|
    .step (step_mode (b := leaveSequence) (by simp)) <| .nil _

/-- The preview waits for a key, and the terminal hangs up. -/
def hangUpCalls : List (TtyEvent Bool) :=
  pageCalls ++ [⟨.poll INPUT_POLL_MS, .ok 0⟩, ⟨.poll INPUT_POLL_MS, .ok 1⟩, ⟨.read 32, .ok []⟩] ++
    leaveCalls

/-- The reply to the geometry inquiries arrives before the input is flushed, and no key is told of
afterwards. -/
theorem no_key_of_nothing_in_flight_hangUp : NoKey hangUpCalls := by
  have hends : (sampleCommand.program (fun _ => true) 2).Ends
      (beforeFlush ++ ⟨.tcflush, .ok ()⟩ :: hangUpCalls) (.ok ()) := by
    iterate 16 refine .perform ?_
    exact .here _
  -- the answer is among the input when it is flushed
  have hanswered : fifoTerminal.Run ⟨[], []⟩
      ([.flush, .write buildGeometryQuery] ++ ttyOps beforeFlush) ⟨[], geometryReply⟩ :=
    run_geometryQuery <| .silent (t := ⟨[], geometryReply⟩) ⟨geometryReply, rfl, rfl⟩ <| .nil _
  have hentered : fifoTerminal.Run ⟨[], []⟩ (ttyOps hangUpCalls) ⟨[], []⟩ :=
    run_pageCalls (run_leaveCalls _)
  exact no_key_of_nothing_in_flight (fun _ => true) 2 Base64.standard noImages silentGeometry
    sampleScreenArgs [] (Text.asBytes "ok") beforeFlush hangUpCalls ⟨[], geometryReply⟩ ⟨[], []⟩
    sixelStrings_noImages ⟨⟨_, _, _, _, setup_silentGeometry, hends, hanswered⟩, hentered⟩ rfl

/-- The preview waits for a key, and is told of the reply. -/
def lateKeyCalls : List (TtyEvent Bool) :=
  [⟨.poll INPUT_POLL_MS, .ok 1⟩, ⟨.read 32, .ok geometryReply⟩]

def lateCalls : List (TtyEvent Bool) := pageCalls ++ lateKeyCalls ++ leaveCalls

theorem lateCalls_ends : (sampleCommand.program (fun _ => true) 2).Ends
    (beforeFlush ++ ⟨.tcflush, .ok ()⟩ :: lateCalls) (.ok ()) := by
  iterate 15 refine .perform ?_
  exact .here _

/-- **A late reply closes the preview**: the reply to the geometry inquiries arrives after the input
was flushed, its first byte is taken for a key, and the preview returns. -/
theorem late_reply_closes_preview :
    ScreenRun (fun _ => true) 2 Base64.standard noImages silentGeometry sampleScreenArgs []
        (Text.asBytes "ok") beforeFlush lateCalls ⟨geometryReply, []⟩ ⟨[], []⟩ ∧
      (sampleCommand.program (fun _ => true) 2).Ends
        (beforeFlush ++ ⟨.tcflush, .ok ()⟩ :: lateCalls) (.ok ()) ∧
      (Calls.readKey none 1).Returns lateKeyCalls (some ESC) ∧ ¬ NoKey lateCalls := by
  have hkey : (Calls.readKey none 1).Returns lateKeyCalls (some ESC) :=
    .perform (.perform (.here _))
  have hinfix : lateKeyCalls <:+: lateCalls := ⟨pageCalls, leaveCalls, rfl⟩
  have hasked : fifoTerminal.Run ⟨[], []⟩
      ([.flush, .write buildGeometryQuery] ++ ttyOps beforeFlush) ⟨geometryReply, []⟩ :=
    run_geometryQuery (.nil _)
  -- the answer arrives while the page is shown
  have hentered : fifoTerminal.Run ⟨geometryReply, []⟩ (ttyOps lateCalls) ⟨[], []⟩ :=
    run_pageCalls <| .silent (t := ⟨[], geometryReply⟩) ⟨geometryReply, rfl, rfl⟩ <|
      .step ⟨[], (List.append_nil _).symm, rfl⟩ <| run_leaveCalls _
  exact ⟨⟨⟨_, _, _, _, setup_silentGeometry, lateCalls_ends, hasked⟩, hentered⟩, lateCalls_ends,
    hkey, fun h => h none 1 lateKeyCalls ESC hkey hinfix⟩

end TermInterop
