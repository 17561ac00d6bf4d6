/-
When an exchange gives up.

The deadline of an exchange is its start and its timeout.  Every turn of its loop waits for input
for as long as remains, in whole milliseconds, and a wait without input ends the loop.  But a wait
takes no more than 65535 milliseconds, so that a longer timeout ends with the first long silence.

What a call does to the clock is a step from one moment to the next.  A wait that reports no input
has taken its time, and nothing arrived meanwhile; whatever else a call does, the clock does not run
backwards.  In a prompt run nothing but waiting takes time, and a wait is over as soon as input is
there.

Main definitions:

* `TermInterop.Arrivals`, `TermInterop.Moment` — what arrives when, and what has been taken of it;
* `TermInterop.clocked` — the terminal on a clock;
* `TermInterop.NeverCutShort` — no exchange gives up before its deadline.

Main results:

* `TermInterop.lt_elapsed_of_timeout`, `TermInterop.arrived_of_timeout` — an exchange whose timeout
  is one wait at most gives up at its deadline, with all that has arrived;
* `TermInterop.neverCutShort_iff` — **no exchange gives up before its deadline** exactly for the
  timeouts that one wait can last.
-/

import TermInterop.Calls
import TermInterop.Geometry

set_option relaxedAutoImplicit false
set_option autoImplicit false

namespace TermInterop

open Calls (LoopReturns exchangeCalls remainingTimeout)

/-! ### The clock and the input -/

/-- What has arrived from the terminal by every instant. -/
structure Arrivals where
  upTo : ℕ → Bytes
  grows : ∀ {t u : ℕ}, t ≤ u → upTo t <+: upTo u

/-- A moment: what the clock shows, and how many of the bytes that arrive have been taken. -/
structure Moment where
  now : ℕ
  taken : ℕ

section Clock

variable (arrivals : Arrivals) (prompt : Prop) {τ : Type}

/-- No input waits before an instant. -/
def Moment.Idle (s : Moment) (limit : ℕ) : Prop :=
  ∀ t < limit, (arrivals.upTo t).length ≤ s.taken

/-- A call that does not wait. -/
def Moment.Passes (s t : Moment) : Prop := s.now ≤ t.now ∧ (prompt → t.now = s.now)

/-- A wait that is over before its time. -/
def Moment.Wakes (s t : Moment) : Prop :=
  s.now ≤ t.now ∧ (prompt → s.Idle arrivals t.now) ∧ t.taken = s.taken

/-- **What a call does to the clock and to the input.** -/
def Moment.Step (s : Moment) : TtyEvent τ → Moment → Prop
  | ⟨.poll millis, .ok 0⟩, t =>
      s.now + fromMillis millis ≤ t.now ∧ s.Idle arrivals (s.now + fromMillis millis) ∧
        t.taken = s.taken
  | ⟨.poll _, _⟩, t => s.Wakes arrivals prompt t
  | ⟨.read _, .ok bytes⟩, t =>
      s.Passes prompt t ∧ bytes <+: (arrivals.upTo t.now).drop s.taken ∧
        t.taken = s.taken + bytes.length
  | ⟨.instantNow, now⟩, t => s.Passes prompt t ∧ now = t.now ∧ t.taken = s.taken
  | ⟨.tcflush, .ok ()⟩, t => s.Passes prompt t ∧ t.taken = (arrivals.upTo t.now).length
  | _, t => s.Passes prompt t ∧ t.taken = s.taken

/-- **The terminal on a clock.** -/
def clocked (τ : Type) : Lts Moment (TtyEvent τ) where
  silent _ _ := False
  step := Moment.Step arrivals prompt

variable {arrivals prompt} {s t : Moment} {e : TtyEvent τ} {events : List (TtyEvent τ)}

theorem clocked_run_nil_iff : (clocked arrivals prompt τ).Run s [] t ↔ t = s :=
  Lts.run_nil_iff_of_not_silent fun _ _ => id

theorem clocked_run_cons_iff : (clocked arrivals prompt τ).Run s (e :: events) t ↔
    ∃ u, s.Step arrivals prompt e u ∧ (clocked arrivals prompt τ).Run u events t :=
  Lts.run_cons_iff_of_not_silent fun _ _ => id

/-- **The clock does not run backwards.** -/
theorem now_le_of_step (h : s.Step arrivals prompt e t) : s.now ≤ t.now := by
  obtain ⟨op, answer⟩ := e
  cases op with
  | poll millis =>
      cases answer with
      | error error => exact h.1
      | ok count =>
          cases count with
          | zero => exact (Nat.le_add_right _ _).trans h.1
          | succ count => exact h.1
  | read capacity =>
      cases answer with
      | error message => exact h.1.1
      | ok bytes => exact h.1.1
  | tcflush =>
      cases answer with
      | error error => exact h.1.1
      | ok u => exact h.1.1
  | _ => exact h.1.1

theorem now_le_of_run (h : (clocked arrivals prompt τ).Run s events t) : s.now ≤ t.now :=
  h.invariant (I := fun u => s.now ≤ u.now) (fun hsilent => hsilent.elim)
    (fun _ hstep hu => hu.trans (now_le_of_step hstep)) (le_refl _)

end Clock

/-! ### The loop on a clock -/

section Loop

variable {stopWhen : Bytes → Option StopReason} {maxResponseBytes deadline : ℕ}
  {arrivals : Arrivals} {prompt : Prop} {τ : Type} {s t : Moment} {events : List (TtyEvent τ)}
  {response final : Bytes} {reason : StopReason}

theorem stopNow_ne_timeout (hreason : ∀ response, stopWhen response ≠ some .timeout) :
    stopNow stopWhen maxResponseBytes response ≠ some .timeout := by
  intro h
  obtain hstop | ⟨-, -, hlimit⟩ := stopNow_eq_some_iff.1 h
  · exact hreason _ hstop
  · cases hlimit

/-- What one wait leaves of the time to a deadline that is no further away than one wait can
last. -/
theorem lt_add_remainingTimeout {before : ℕ} (h : deadline < before + fromMillis 65536) :
    deadline < before + fromMillis (remainingTimeout deadline before) + fromMillis 1 := by
  simp only [fromMillis, remainingTimeout, asMillis] at h ⊢
  omega

/-- **A loop gives up when less than a millisecond remains**, if its deadline is no further away
than one wait can last. -/
theorem lt_now_of_timeout (hreason : ∀ response, stopWhen response ≠ some .timeout)
    (h : LoopReturns stopWhen maxResponseBytes deadline response events final reason)
    (htimeout : reason = .timeout) (hrun : (clocked arrivals prompt τ).Run s events t)
    (hnear : deadline < s.now + fromMillis 65536) : deadline < t.now + fromMillis 1 := by
  induction h generalizing s with
  | stopped hstop =>
      subst htimeout
      exact absurd hstop (stopNow_ne_timeout hreason)
  | late _ hdeadline =>
      obtain ⟨u, ⟨-, rfl, -⟩, hrest⟩ := clocked_run_cons_iff.1 hrun
      obtain rfl := clocked_run_nil_iff.1 hrest
      exact Nat.lt_of_le_of_lt hdeadline (Nat.lt_add_of_pos_right (by decide))
  | silent _ _ =>
      obtain ⟨u, hnow, hrest⟩ := clocked_run_cons_iff.1 hrun
      obtain ⟨v, ⟨hpasses, rfl, -⟩, hlast⟩ := clocked_run_cons_iff.1 hrest
      obtain ⟨w, ⟨hwaited, -⟩, hend⟩ := clocked_run_cons_iff.1 hlast
      obtain rfl := clocked_run_nil_iff.1 hend
      have hlater : s.now ≤ v.now := (now_le_of_step hnow).trans hpasses.1
      have hleft := lt_add_remainingTimeout
        (Nat.lt_of_lt_of_le hnear (Nat.add_le_add_right hlater _))
      exact Nat.lt_of_lt_of_le hleft (Nat.add_le_add_right hwaited _)
  | interrupted _ _ _ ih =>
      obtain ⟨u, hnow, hrest⟩ := clocked_run_cons_iff.1 hrun
      obtain ⟨v, hbefore, hlast⟩ := clocked_run_cons_iff.1 hrest
      obtain ⟨w, hpolled, hend⟩ := clocked_run_cons_iff.1 hlast
      have hlater := ((now_le_of_step hnow).trans (now_le_of_step hbefore)).trans
        (now_le_of_step hpolled)
      exact ih htimeout hend (Nat.lt_of_lt_of_le hnear (Nat.add_le_add_right hlater _))
  | ended => cases htimeout
  | received _ _ _ _ _ ih =>
      obtain ⟨u, hnow, hrest⟩ := clocked_run_cons_iff.1 hrun
      obtain ⟨v, hbefore, hlast⟩ := clocked_run_cons_iff.1 hrest
      obtain ⟨w, hpolled, hend⟩ := clocked_run_cons_iff.1 hlast
      obtain ⟨x, hread, hrestart⟩ := clocked_run_cons_iff.1 hend
      have hlater := (((now_le_of_step hnow).trans (now_le_of_step hbefore)).trans
        (now_le_of_step hpolled)).trans (now_le_of_step hread)
      exact ih htimeout hrestart (Nat.lt_of_lt_of_le hnear (Nat.add_le_add_right hlater _))

/-- What the loop keeps in a prompt run: it has collected what was taken since the flush, and before
its deadline is over it has taken all that arrived. -/
structure Collecting (arrivals : Arrivals) (deadline flushed : ℕ) (s : Moment) (response : Bytes) :
    Prop where
  collected : response <+: (arrivals.upTo s.now).drop flushed
  taken : s.taken = flushed + response.length
  arrived : deadline ≤ s.now → s.Idle arrivals s.now

/-- What has arrived while nothing waited has been collected. -/
theorem Collecting.all_of_idle {flushed u : ℕ} (h : Collecting arrivals deadline flushed s response)
    (hidle : (arrivals.upTo u).length ≤ s.taken) :
    (arrivals.upTo u).drop flushed <+: response := by
  have hlength : ((arrivals.upTo u).drop flushed).length ≤ response.length := by
    rw [List.length_drop]
    have htaken := h.taken
    omega
  rcases Nat.le_total u s.now with hle | hle
  · exact List.prefix_of_prefix_length_le ((arrivals.grows hle).drop flushed) h.collected hlength
  · have hgrown := h.collected.trans ((arrivals.grows hle).drop flushed)
    exact (hgrown.eq_of_length_le hlength) ▸ List.prefix_refl _

/-- Time passes while nothing arrives. -/
theorem Collecting.wait {flushed : ℕ} (h : Collecting arrivals deadline flushed s response)
    (hlater : s.now ≤ t.now) (htaken : t.taken = s.taken)
    (harrived : deadline ≤ t.now → s.Idle arrivals t.now) :
    Collecting arrivals deadline flushed t response where
  collected := h.collected.trans ((arrivals.grows hlater).drop flushed)
  taken := htaken.trans h.taken
  arrived hdeadline u hu := (harrived hdeadline u hu).trans_eq htaken.symm

/-- What is read has arrived next. -/
theorem Collecting.read {flushed : ℕ} {bytes : Bytes}
    (h : Collecting arrivals deadline flushed s response) (hnow : t.now = s.now)
    (hbytes : bytes <+: (arrivals.upTo t.now).drop s.taken)
    (htaken : t.taken = s.taken + bytes.length) :
    Collecting arrivals deadline flushed t (response ++ bytes) where
  collected := by
    obtain ⟨rest, hrest⟩ := h.collected
    rw [hnow] at hbytes ⊢
    rw [h.taken, ← List.drop_drop, ← hrest, List.drop_left] at hbytes
    rw [← hrest]
    exact (List.prefix_append_right_inj response).2 hbytes
  taken := by rw [htaken, h.taken, List.length_append, Nat.add_assoc]
  arrived hdeadline u hu := by
    rw [hnow] at hdeadline hu
    exact (h.arrived hdeadline u hu).trans (htaken ▸ Nat.le_add_right _ _)

/-- The two readings of the clock in a turn take no time. -/
theorem Collecting.turn {flushed now before millis : ℕ} {polled : Except Errno ℕ}
    (h : Collecting arrivals deadline flushed s response)
    (hrun : (clocked arrivals True τ).Run s
      (⟨.instantNow, now⟩ :: ⟨.instantNow, before⟩ :: ⟨.poll millis, polled⟩ :: events) t) :
    ∃ u v, Collecting arrivals deadline flushed u response ∧ u.now = s.now ∧ now = s.now ∧
      before = s.now ∧ u.Step arrivals True (τ := τ) ⟨.poll millis, polled⟩ v ∧
        (clocked arrivals True τ).Run v events t := by
  obtain ⟨u, ⟨hfirst, rfl, htaken⟩, hrest⟩ := clocked_run_cons_iff.1 hrun
  obtain ⟨v, ⟨hsecond, rfl, htaken'⟩, hlast⟩ := clocked_run_cons_iff.1 hrest
  obtain ⟨w, hpolled, hend⟩ := clocked_run_cons_iff.1 hlast
  have hu := hfirst.2 trivial
  have hv := (hsecond.2 trivial).trans hu
  have hstays : Collecting arrivals deadline flushed v response :=
    h.wait (le_of_eq hv.symm) (htaken'.trans htaken) fun hdeadline =>
      hv ▸ h.arrived (hv ▸ hdeadline)
  exact ⟨v, w, hstays, hv, hu, hv, hpolled, hend⟩

/-- **A prompt loop that gives up has collected what had arrived a millisecond before its
deadline**, if its deadline is no further away than one wait can last. -/
theorem collected_of_timeout {flushed : ℕ}
    (hreason : ∀ response, stopWhen response ≠ some .timeout)
    (h : LoopReturns stopWhen maxResponseBytes deadline response events final reason)
    (htimeout : reason = .timeout) (hrun : (clocked arrivals True τ).Run s events t)
    (hs : Collecting arrivals deadline flushed s response)
    (hnear : deadline < s.now + fromMillis 65536) {u : ℕ} (hu : u + fromMillis 1 ≤ deadline) :
    (arrivals.upTo u).drop flushed <+: final := by
  induction h generalizing s with
  | stopped hstop =>
      subst htimeout
      exact absurd hstop (stopNow_ne_timeout hreason)
  | late _ hdeadline =>
      obtain ⟨v, ⟨hpasses, rfl, -⟩, -⟩ := clocked_run_cons_iff.1 hrun
      rw [hpasses.2 trivial] at hdeadline
      refine hs.all_of_idle (hs.arrived hdeadline u ?_)
      exact Nat.lt_of_lt_of_le (Nat.lt_add_of_pos_right (by decide)) (hu.trans hdeadline)
  | silent _ _ =>
      obtain ⟨v, w, hv, hnow, -, rfl, ⟨-, hidle, -⟩, -⟩ := hs.turn hrun
      refine hv.all_of_idle (hidle u ?_)
      rw [hnow]
      exact Nat.lt_of_add_lt_add_right (Nat.lt_of_le_of_lt hu (lt_add_remainingTimeout hnear))
  | interrupted _ _ _ ih =>
      obtain ⟨v, w, hv, hnow, -, -, ⟨hlater, hidle, htaken⟩, hrest⟩ := hs.turn hrun
      refine ih htimeout hrest (hv.wait hlater htaken fun _ => hidle trivial) ?_
      exact Nat.lt_of_lt_of_le hnear (Nat.add_le_add_right (hnow ▸ hlater) _)
  | ended => cases htimeout
  | received _ _ _ _ _ ih =>
      obtain ⟨v, w, hv, hnow, -, -, ⟨hlater, hidle, htaken⟩, hrest⟩ := hs.turn hrun
      obtain ⟨x, ⟨hpasses, hbytes, htaken'⟩, hrestart⟩ := clocked_run_cons_iff.1 hrest
      have hw : Collecting arrivals deadline flushed w _ :=
        hv.wait hlater htaken fun _ => hidle trivial
      refine ih htimeout hrestart (hw.read (hpasses.2 trivial) hbytes htaken') ?_
      rw [hpasses.2 trivial]
      exact Nat.lt_of_lt_of_le hnear (Nat.add_le_add_right (hnow ▸ hlater) _)

end Loop

/-! ### The exchange on a clock -/

section Exchange

variable {τ : Type} {makeRaw : τ → τ} {turns timeout maxResponseBytes : ℕ} {ttyPath request : Bytes}
  {stopWhen : Bytes → Option StopReason} {arrivals : Arrivals} {prompt : Prop} {s t : Moment}
  {original : τ} {started finished : ℕ} {loop events : List (TtyEvent τ)} {live : LiveExchange}
  {restored : Except Errno Unit}

/-- The loop of an exchange runs between its two readings of the clock, and in a prompt run it
starts with the exchange, when the input before it has been discarded. -/
theorem loop_of_exchangeCalls
    (h : (clocked arrivals prompt τ).Run s
      (exchangeCalls makeRaw ttyPath request original started loop finished restored) t) :
    ∃ u v, (clocked arrivals prompt τ).Run u loop v ∧ u.now = started ∧ v.now ≤ finished ∧
      (prompt → started = s.now ∧ u.taken = (arrivals.upTo s.now).length) := by
  obtain ⟨s₁, ⟨hopened, -⟩, h⟩ := clocked_run_cons_iff.1 h
  obtain ⟨s₂, ⟨hget, -⟩, h⟩ := clocked_run_cons_iff.1 h
  obtain ⟨s₃, ⟨hflushed, htaken⟩, h⟩ := clocked_run_cons_iff.1 h
  obtain ⟨s₄, ⟨hset, hset'⟩, h⟩ := clocked_run_cons_iff.1 h
  obtain ⟨s₅, ⟨hcloned, hcloned'⟩, h⟩ := clocked_run_cons_iff.1 h
  obtain ⟨s₆, ⟨hwritten, hwritten'⟩, h⟩ := clocked_run_cons_iff.1 h
  obtain ⟨s₇, ⟨hsent, hsent'⟩, h⟩ := clocked_run_cons_iff.1 h
  obtain ⟨u, ⟨hstarted, rfl, hstarted'⟩, hrest⟩ := clocked_run_cons_iff.1 h
  change (clocked arrivals prompt τ).Run u ((loop ++ [_]) ++ [_]) t at hrest
  rw [List.append_assoc] at hrest
  obtain ⟨v, hloop, hlast⟩ := Lts.run_append_iff.1 hrest
  obtain ⟨w, ⟨hfinished, rfl, -⟩, -⟩ := clocked_run_cons_iff.1 hlast
  refine ⟨u, v, hloop, rfl, hfinished.1, fun hprompt => ?_⟩
  have h₃ := ((hflushed.2 hprompt).trans (hget.2 hprompt)).trans (hopened.2 hprompt)
  have h₅ := ((hcloned.2 hprompt).trans (hset.2 hprompt)).trans h₃
  have hnow := (((hstarted.2 hprompt).trans (hsent.2 hprompt)).trans (hwritten.2 hprompt)).trans h₅
  refine ⟨hnow, ?_⟩
  rw [hstarted', hsent', hwritten', hcloned', hset', htaken, h₃]

theorem eq_add_of_checkedAdd {deadline : ℕ}
    (hdeadline : checkedAdd started timeout = some deadline) : deadline = started + timeout := by
  rw [checkedAdd] at hdeadline
  split_ifs at hdeadline
  exact (Option.some.inj hdeadline).symm

/-- **An exchange that gives up has used its time**, up to a millisecond, if its timeout is one wait
at most. -/
theorem lt_elapsed_of_timeout (hshort : timeout < fromMillis 65536)
    (hreason : ∀ response, stopWhen response ≠ some .timeout)
    (h : (Calls.executeTtyExchange makeRaw turns ttyPath request timeout maxResponseBytes
      stopWhen).Returns events live)
    (hrun : (clocked arrivals prompt τ).Run s events t) (htimeout : live.stopReason = .timeout) :
    timeout < live.elapsed + fromMillis 1 := by
  obtain ⟨original, started, deadline, loop, finished, restored, -, -, hdeadline, hloop, helapsed,
    rfl⟩ := Calls.calls_of_executeTtyExchange h
  obtain ⟨u, v, hrunLoop, rfl, hv, -⟩ := loop_of_exchangeCalls hrun
  obtain rfl := eq_add_of_checkedAdd hdeadline
  have hend := lt_now_of_timeout hreason (Calls.loopReturns_of_returns hloop) htimeout hrunLoop
    (Nat.add_lt_add_left hshort _)
  have hpasses := now_le_of_run hrunLoop
  rw [helapsed]
  omega

/-- **A prompt exchange that gives up has collected what had arrived a millisecond before its
deadline**, if its timeout is one wait at most. -/
theorem arrived_of_timeout (hshort : timeout < fromMillis 65536)
    (hreason : ∀ response, stopWhen response ≠ some .timeout)
    (h : (Calls.executeTtyExchange makeRaw turns ttyPath request timeout maxResponseBytes
      stopWhen).Returns events live)
    (hrun : (clocked arrivals True τ).Run s events t) (htimeout : live.stopReason = .timeout)
    {u : ℕ} (hu : u + fromMillis 1 ≤ s.now + timeout) :
    (arrivals.upTo u).drop (arrivals.upTo s.now).length <+: live.response := by
  obtain ⟨original, started, deadline, loop, finished, restored, hpositive, -, hdeadline, hloop, -,
    rfl⟩ := Calls.calls_of_executeTtyExchange h
  obtain ⟨v, w, hrunLoop, rfl, -, hprompt⟩ := loop_of_exchangeCalls hrun
  obtain ⟨hnow, htaken⟩ := hprompt trivial
  obtain rfl := eq_add_of_checkedAdd hdeadline
  have hstart : Collecting arrivals (v.now + timeout) (arrivals.upTo s.now).length v [] :=
    ⟨List.nil_prefix, by rw [htaken, List.length_nil, Nat.add_zero], fun hlate => by omega⟩
  exact collected_of_timeout hreason (Calls.loopReturns_of_returns hloop) htimeout hrunLoop hstart
    (Nat.add_lt_add_left hshort _) (hnow ▸ hu)

/-- **An exchange with a longer timeout gives up after one wait**, when nothing arrives
meanwhile. -/
theorem gives_up_after_one_wait (makeRaw : τ → τ) (ttyPath request : Bytes) (original : τ)
    (prompt : Prop) (hlong : fromMillis 65536 ≤ timeout) (hrange : timeout < INSTANT_END)
    (hmax : 0 < maxResponseBytes) (hempty : stopWhen [] = none)
    (hnothing : ∀ u < fromMillis 65535, arrivals.upTo u = []) :
    ∃ events, (Calls.executeTtyExchange makeRaw 1 ttyPath request timeout maxResponseBytes
        stopWhen).Returns events ⟨[], fromMillis 65535, .timeout⟩ ∧
      (clocked arrivals prompt τ).Run ⟨0, 0⟩ events ⟨fromMillis 65535, 0⟩ := by
  have hwait : remainingTimeout timeout 0 = 65535 := by
    simp only [fromMillis, remainingTimeout, asMillis] at hlong ⊢
    omega
  have hdeadline : checkedAdd 0 timeout = some timeout := by
    rw [checkedAdd, Nat.zero_add, if_pos hrange]
  have hstop : stopNow stopWhen maxResponseBytes [] = none := stopNow_eq_none_iff.2 ⟨hempty, hmax⟩
  have hpositive : 0 < timeout := Nat.lt_of_lt_of_le (by decide) hlong
  have hloop : (Calls.exchangeLoop stopWhen maxResponseBytes timeout 1 [] :
      TtyProg τ (Bytes × StopReason)).Returns
      [⟨.instantNow, 0⟩, ⟨.instantNow, 0⟩, ⟨.poll (remainingTimeout timeout 0), .ok 0⟩]
      ([], .timeout) := by
    rw [Calls.exchangeLoop, hstop]
    refine Prog.Reaches.perform ?_
    change (if timeout ≤ 0 then _ else _ : TtyProg τ (Bytes × StopReason)).Reaches _ _
    rw [if_neg (Nat.not_le.2 hpositive)]
    exact Prog.Reaches.perform (Prog.Reaches.perform (Prog.Reaches.here _))
  refine ⟨Calls.exchangeCalls makeRaw ttyPath request original 0 _ (fromMillis 65535) (.ok ()),
    Calls.executeTtyExchange_of_calls hpositive.ne' hmax.ne' hdeadline hloop, ?_⟩
  have hstays : ∀ s : Moment, s.Passes prompt s := fun s => ⟨le_refl _, fun _ => rfl⟩
  have hnone : 0 = (arrivals.upTo 0).length := by rw [hnothing 0 (by decide), List.length_nil]
  have hidle : Moment.Idle arrivals ⟨0, 0⟩ (0 + fromMillis (remainingTimeout timeout 0)) := by
    intro u hu
    rw [hwait, Nat.zero_add] at hu
    rw [hnothing u hu]
    exact le_refl _
  have hwaited : 0 + fromMillis (remainingTimeout timeout 0) ≤ fromMillis 65535 := by
    rw [hwait, Nat.zero_add]
  refine .step ⟨hstays _, rfl⟩
    (.step ⟨hstays _, rfl⟩ (.step ⟨hstays _, hnone⟩ (.step ⟨hstays _, rfl⟩
    (.step ⟨hstays _, rfl⟩ (.step ⟨hstays _, rfl⟩ (.step ⟨hstays _, rfl⟩ (.step ⟨hstays _, rfl, rfl⟩
      ?_)))))))
  refine .step ⟨hstays _, rfl, rfl⟩ (.step ⟨hstays _, rfl, rfl⟩ (.step (t := ⟨fromMillis 65535, 0⟩)
    ⟨hwaited, hidle, rfl⟩ ?_))
  exact .step ⟨hstays _, rfl, rfl⟩ (.step ⟨hstays _, rfl⟩ (.nil _))

/-! ### Which timeouts are kept -/

/-- A predicate that waits for a reply: it does not hold of nothing, and it never gives up. -/
structure Awaits (stopWhen : Bytes → Option StopReason) : Prop where
  empty : stopWhen [] = none
  reason : ∀ response, stopWhen response ≠ some .timeout

theorem awaits_kgpStopReason (b64 : Base64.Codec) (correlationId : UInt32) :
    Awaits fun response => kgpStopReason b64 response correlationId where
  empty := rfl
  reason response := by
    intro h
    obtain ⟨-, hreason⟩ := kgpStopReason_eq_some_iff.1 h
    split_ifs at hreason

theorem awaits_da1StopReason (b64 : Base64.Codec) : Awaits (da1StopReason b64) where
  empty := rfl
  reason response := by
    rw [da1StopReason]
    split_ifs <;> simp

theorem awaits_geometryStopReason (b64 : Base64.Codec) : Awaits (geometryStopReason b64) where
  empty := rfl
  reason response := by
    intro h
    obtain ⟨-, -, hreason⟩ := geometryStopReason_eq_some_iff.1 h
    cases hreason

/-- **No exchange gives up before its deadline.** -/
structure NeverCutShort (makeRaw : τ → τ) (ttyPath request : Bytes) (timeout maxResponseBytes : ℕ)
    (stopWhen : Bytes → Option StopReason) : Prop where
  /-- When it gives up, less than a millisecond remains; what follows the loop may take no time. -/
  elapsed {arrivals : Arrivals} {turns : ℕ} {s t : Moment} {events : List (TtyEvent τ)}
    {live : LiveExchange} : (Calls.executeTtyExchange makeRaw turns ttyPath request timeout
      maxResponseBytes stopWhen).Returns events live →
    (clocked arrivals False τ).Run s events t → live.stopReason = .timeout →
      timeout < live.elapsed + fromMillis 1
  /-- In a prompt run, a reply that arrives before that point has been collected. -/
  collected {arrivals : Arrivals} {turns : ℕ} {s t : Moment} {events : List (TtyEvent τ)}
    {live : LiveExchange} : (Calls.executeTtyExchange makeRaw turns ttyPath request timeout
      maxResponseBytes stopWhen).Returns events live →
    (clocked arrivals True τ).Run s events t → live.stopReason = .timeout →
      ∀ u, u + fromMillis 1 ≤ s.now + timeout →
        (arrivals.upTo u).drop (arrivals.upTo s.now).length <+: live.response

/-- **No exchange gives up before its deadline** exactly for the timeouts that one wait can last. -/
theorem neverCutShort_iff [Inhabited τ] (makeRaw : τ → τ) (ttyPath request : Bytes)
    (timeoutMs : UInt64) (maxResponseBytes : ℕ) (stopWhen : Bytes → Option StopReason)
    (hmax : 0 < maxResponseBytes) (hawaits : Awaits stopWhen) :
    NeverCutShort makeRaw ttyPath request (fromMillis timeoutMs.toNat) maxResponseBytes stopWhen ↔
      timeoutMs.toNat ≤ 65535 := by
  constructor
  · intro h
    by_contra hlong
    have hwaits : fromMillis 65536 ≤ fromMillis timeoutMs.toNat := by
      simp only [fromMillis]
      omega
    have hrange : fromMillis timeoutMs.toNat < INSTANT_END := by
      have hsize := timeoutMs.toNat_lt
      simp only [fromMillis, INSTANT_END]
      omega
    have hnothing :
        ∀ u < fromMillis 65535, (⟨fun _ => [], fun _ => List.nil_prefix⟩ : Arrivals).upTo u
        = [] := fun _ _ => rfl
    obtain ⟨events, hreturns, hrun⟩ := gives_up_after_one_wait makeRaw ttyPath request default False
      hwaits hrange hmax hawaits.empty hnothing
    have hless := h.elapsed hreturns hrun rfl
    simp only [fromMillis] at hless hwaits
    omega
  · intro h
    have hshort : fromMillis timeoutMs.toNat < fromMillis 65536 := by
      simp only [fromMillis]
      omega
    exact ⟨lt_elapsed_of_timeout hshort hawaits.reason, fun hreturns hrun htimeout u hu =>
      arrived_of_timeout hshort hawaits.reason hreturns hrun htimeout hu⟩

/-- The default timeout of the probes is kept. -/
theorem neverCutShort_iff_default :
    NeverCutShort (τ := Unit) id (Text.asBytes "/dev/tty") Sixel.buildQuery (fromMillis 750) 65536
      (da1StopReason Base64.standard) :=
  (neverCutShort_iff id (Text.asBytes "/dev/tty") Sixel.buildQuery 750 65536
    (da1StopReason Base64.standard) (by decide) (awaits_da1StopReason _)).2 (by decide)

/-- A reply that arrives as a whole. -/
def arrivesAt (millis : ℕ) (reply : Bytes) : Arrivals where
  upTo t := if t < fromMillis millis then [] else reply
  grows {t u} hle := by
    split_ifs with ht hu hu
    · exact List.prefix_refl _
    · exact List.nil_prefix
    · exact absurd (Nat.lt_of_le_of_lt hle hu) ht
    · exact List.prefix_refl _

theorem upTo_arrivesAt (millis : ℕ) (reply : Bytes) (t : ℕ) :
    (arrivesAt millis reply).upTo t = if t < fromMillis millis then [] else reply := rfl

/-- A reply after 70 s is lost, although the exchange was to wait for two minutes. -/
theorem reply_in_time_lost :
    ∃ events, (Calls.executeTtyExchange (τ := Unit) id 1 (Text.asBytes "/dev/tty") Sixel.buildQuery
        (fromMillis 120000) 65536 (da1StopReason Base64.standard)).Returns events
          ⟨[], fromMillis 65535, .timeout⟩ ∧
      (clocked (arrivesAt 70000 (Text.asBytes "\x1b[?62;4c")) True Unit).Run ⟨0, 0⟩ events
        ⟨fromMillis 65535, 0⟩ ∧
      ¬ NeverCutShort (τ := Unit) id (Text.asBytes "/dev/tty") Sixel.buildQuery (fromMillis 120000)
        65536 (da1StopReason Base64.standard) := by
  have hnothing : ∀ u < fromMillis 65535,
      (arrivesAt 70000 (Text.asBytes "\x1b[?62;4c")).upTo u = [] := by
    intro u hu
    have hearly : u < fromMillis 70000 := hu.trans (by decide)
    rw [upTo_arrivesAt, if_pos hearly]
  obtain ⟨events, hreturns, hrun⟩ := gives_up_after_one_wait id (Text.asBytes "/dev/tty")
    Sixel.buildQuery () True (by decide : fromMillis 65536 ≤ fromMillis 120000) (by decide)
    (by decide : 0 < 65536) (awaits_da1StopReason Base64.standard).empty hnothing
  refine ⟨events, hreturns, hrun, fun hnever => ?_⟩
  have hcollected := hnever.collected hreturns hrun rfl (fromMillis 70000) (by decide)
  rw [upTo_arrivesAt, upTo_arrivesAt, if_neg (lt_irrefl _), if_pos (by decide), List.length_nil,
    List.drop_zero] at hcollected
  exact absurd (List.prefix_nil.1 hcollected) (by decide)

end Exchange

end TermInterop
