/-
How keys reach a preview.

A machine moves by one item at a time.  A reader that gets its items in batches, but only hands the
first item of each to the machine, drops the others.  Nothing is lost by this as long as the dropped
items would have left the machine where it was; and when the machine is watched after every batch,
this is the only way in which nothing is lost.

A preview waits for keys one at a time, but the terminal hands them over in batches: whoever reads
gets all bytes that have arrived, up to the length of the buffer.  The preview looks at the first
byte of a batch only.  So a key that arrives together with an earlier one is dropped, and the state
of the preview depends on how the same keys were grouped.

Both previews are one loop: a turn waits for a key, and the key leads to the next state or ends the
loop.  `KeyRun` is what such a loop does, turn by turn; it is compared with the loop itself in both
directions.

Main definitions:

* `Batches.Batch`, `Batches.Harmless` — an item and those behind it; the dropped items do nothing;
* `TermInterop.Calls.keyLoop`, `TermInterop.Calls.KeyRun` — loops over keys, and their runs;
* `TermInterop.TextAfter`, `TermInterop.RasterAfter` — the state of a preview after some reads;
* `TermInterop.KeysKept` — the state does not depend on how the keys were grouped.

Main results:

* `Batches.firsts_agree_iff` — **the first items suffice** exactly when the others are harmless;
* `TermInterop.Calls.keyLoop_reaches`, `TermInterop.Calls.KeyRun.reaches` — the loop does what its
  runs say;
* `TermInterop.textAfter_iff`, `TermInterop.rasterAfter_iff` — where reads take a preview;
* `TermInterop.keys_kept_iff` — **keys are kept** exactly when those that are dropped do nothing.
-/

import TermInterop.Pager

set_option relaxedAutoImplicit false
set_option autoImplicit false

/-! ### Machines that are fed in batches -/

namespace Batches

variable {σ κ : Type*}

/-- A batch of items, at least one. -/
structure Batch (κ : Type*) where
  first : κ
  rest : List κ

namespace Batch

/-- The items of a batch. -/
def items (batch : Batch κ) : List κ := batch.first :: batch.rest

theorem items_injective : Function.Injective (items : Batch κ → List κ) := by
  intro a b h
  obtain ⟨first, rest⟩ := a
  obtain ⟨first', rest'⟩ := b
  obtain ⟨rfl, rfl⟩ := List.cons.inj h
  rfl

end Batch

/-- The items of some batches, in order. -/
def allItems (batches : List (Batch κ)) : List κ := batches.flatMap Batch.items

/-- The same items, each in a batch of its own. -/
def singly (items : List κ) : List (Batch κ) := items.map fun item => ⟨item, []⟩

theorem firsts_singly (items : List κ) : (singly items).map Batch.first = items := by
  simp [singly, Function.comp_def]

variable (step : σ → κ → σ)

/-- **The dropped items do nothing**: those behind the first one of a batch leave the machine where
the first one took it. -/
def Harmless : σ → List (Batch κ) → Prop
  | _, [] => True
  | s, batch :: batches =>
      batch.rest.foldl step (step s batch.first) = step s batch.first ∧
        Harmless (step s batch.first) batches

variable {step}

theorem foldl_of_harmless {s : σ} {batches : List (Batch κ)} (h : Harmless step s batches) :
    (batches.map Batch.first).foldl step s = (allItems batches).foldl step s := by
  induction batches generalizing s with
  | nil => rfl
  | cons batch batches ih =>
      obtain ⟨hrest, hmore⟩ := h
      have hfirst : (allItems (batch :: batches)).foldl step s =
          (allItems batches).foldl step (step s batch.first) := by
        rw [allItems, List.flatMap_cons, List.foldl_append, Batch.items, List.foldl_cons, hrest]
        rfl
      rw [hfirst, List.map_cons, List.foldl_cons]
      exact ih hmore

theorem Harmless.of_prefix {s : σ} {part batches : List (Batch κ)} (h : Harmless step s batches)
    (hpart : part <+: batches) : Harmless step s part := by
  induction part generalizing s batches with
  | nil => trivial
  | cons batch part ih =>
      obtain ⟨rest, rfl⟩ := hpart
      exact ⟨h.1, ih h.2 (List.prefix_append part rest)⟩

/-- **The first items suffice** at every moment when the others are harmless, and only then. -/
theorem firsts_agree_iff {s : σ} {batches : List (Batch κ)} :
    (∀ part, part <+: batches →
        (part.map Batch.first).foldl step s = (allItems part).foldl step s) ↔
      Harmless step s batches := by
  constructor
  · intro h
    induction batches generalizing s with
    | nil => trivial
    | cons batch batches ih =>
        have hbatch : batch.rest.foldl step (step s batch.first) = step s batch.first := by
          have hfirst := h [batch] (List.cons_prefix_cons.2 ⟨rfl, List.nil_prefix⟩)
          simpa [allItems, Batch.items] using hfirst.symm
        refine ⟨hbatch, ih fun part hpart => ?_⟩
        have hmore := h (batch :: part) (List.cons_prefix_cons.2 ⟨rfl, hpart⟩)
        rwa [List.map_cons, List.foldl_cons, allItems, List.flatMap_cons, List.foldl_append,
          Batch.items, List.foldl_cons, hbatch] at hmore
  · intro h part hpart
    exact foldl_of_harmless (h.of_prefix hpart)

end Batches

namespace TermInterop

open Batches (Batch Harmless allItems singly)

namespace Calls

variable {τ : Type}

/-! ### Loops over keys -/

section Loop

variable {σ : Type} (turn : σ → TtyProg τ (Option UInt8)) (next : σ → UInt8 → Option σ)

/-- A loop over keys: a turn of it may end without a key, and then the loop ends. -/
def keyLoop : ℕ → σ → TtyProg τ Unit
  | 0, _ => Prog.unfinished
  | fuel + 1, s => do
      match ← turn s with
      | none => pure ()
      | some key =>
          match next s key with
          | none => pure ()
          | some s => keyLoop fuel s

/-- The loop from a state on, or its end. -/
def resume (fuel : ℕ) : Option σ → TtyProg τ Unit
  | some s => keyLoop turn next fuel s
  | none => .ret ()

/-- **The runs of a loop**, as long as every turn has a key: to another state, or to the end. -/
inductive KeyRun : σ → List (TtyEvent τ) → Option σ → Prop
  | stays (s : σ) : KeyRun s [] (some s)
  | ends {s : σ} {events : List (TtyEvent τ)} {key : UInt8} :
      (turn s).Returns events (some key) → next s key = none → KeyRun s events none
  | turns {s s' : σ} {events more : List (TtyEvent τ)} {key : UInt8} {state : Option σ} :
      (turn s).Returns events (some key) → next s key = some s' → KeyRun s' more state →
        KeyRun s (events ++ more) state

variable {turn next} {s s' : σ} {events : List (TtyEvent τ)} {left : TtyProg τ Unit}

/-- A run of the loop is one of the runs, and then the beginning of a turn. -/
theorem keyLoop_reaches {fuel : ℕ} (h : (keyLoop turn next fuel s).Reaches events left) :
    (KeyRun turn next s events none ∧ left = .ret ()) ∨
      ∃ before now s', events = before ++ now ∧ KeyRun turn next s before (some s') ∧
        ((∃ waiting, (turn s').Reaches now waiting) ∨ now = []) := by
  induction fuel generalizing s events with
  | zero =>
      obtain ⟨rfl, -⟩ := Prog.unfinished_reaches_iff.1 h
      exact Or.inr ⟨[], [], s, rfl, .stays s, Or.inr rfl⟩
  | succ fuel ih =>
      rw [keyLoop] at h
      rcases Prog.bind_reaches_iff.1 h with
        ⟨waiting, hwaiting, -⟩ | ⟨e₁, key, e₂, hturn, hrest, rfl⟩
      · exact Or.inr ⟨[], events, s, rfl, .stays s, Or.inl ⟨waiting, hwaiting⟩⟩
      · cases key with
        | none =>
            obtain ⟨rfl, -⟩ := Prog.ret_reaches_iff.1 hrest
            rw [List.append_nil]
            exact Or.inr ⟨[], e₁, s, rfl, .stays s, Or.inl ⟨_, hturn⟩⟩
        | some key =>
            cases hnext : next s key with
            | none =>
                simp only [hnext] at hrest
                obtain ⟨rfl, rfl⟩ := Prog.ret_reaches_iff.1 hrest
                rw [List.append_nil]
                exact Or.inl ⟨.ends hturn hnext, rfl⟩
            | some s' =>
                simp only [hnext] at hrest
                rcases ih hrest with ⟨hrun, hleft⟩ | ⟨before, now, s'', rfl, hrun, hnow⟩
                · exact Or.inl ⟨.turns hturn hnext hrun, hleft⟩
                · exact Or.inr ⟨e₁ ++ before, now, s'', by rw [List.append_assoc],
                    .turns hturn hnext hrun, hnow⟩

/-- **What a run says, the loop does**, for as many turns as it takes, and so does every loop whose
turns can do the same. -/
theorem KeyRun.reaches {state : Option σ} (h : KeyRun turn next s events state) :
    ∃ count, ∀ turn' : σ → TtyProg τ (Option UInt8),
      (∀ s events key, (turn s).Returns events (some key) → (turn' s).Returns events (some key)) →
        ∀ fuel, (keyLoop turn' next (fuel + count) s).Reaches events
          (resume turn' next fuel state) := by
  induction h with
  | stays s => exact ⟨0, fun turn' _ fuel => Prog.Reaches.here _⟩
  | @ends s events key hturn hnext =>
      refine ⟨1, fun turn' hcan fuel => ?_⟩
      refine Prog.bind_reaches_iff.2
        (Or.inr ⟨events, some key, [], hcan _ _ _ hturn, ?_, (List.append_nil events).symm⟩)
      simp only [hnext]
      exact Prog.Reaches.here _
  | @turns s s' events more key state hturn hnext _ ih =>
      obtain ⟨count, hcount⟩ := ih
      refine ⟨count + 1, fun turn' hcan fuel => ?_⟩
      refine Prog.bind_reaches_iff.2 (Or.inr ⟨events, some key, more, hcan _ _ _ hturn, ?_, rfl⟩)
      simp only [hnext]
      exact hcount turn' hcan fuel

end Loop

/-! ### What is delivered -/

/-- The bytes that a call has read. -/
def deliveredBy : TtyEvent τ → Option Bytes
  | ⟨.read _, .ok bytes⟩ => some bytes
  | _ => none

/-- The results of the reads of a run, in order. -/
def deliveries (events : List (TtyEvent τ)) : List Bytes := events.filterMap deliveredBy

theorem deliveries_append (e₁ e₂ : List (TtyEvent τ)) :
    deliveries (e₁ ++ e₂) = deliveries e₁ ++ deliveries e₂ := List.filterMap_append

/-- The turns of a loop read a batch of keys, and look at its first byte. -/
def TakesFirst {σ : Type} (turn : σ → TtyProg τ (Option UInt8)) : Prop :=
  ∀ s events key, (turn s).Returns events (some key) → ∃ rest, deliveries events = [key :: rest]

/-- Any batch of keys may arrive in a turn. -/
def TakesAny {σ : Type} (turn : σ → TtyProg τ (Option UInt8)) : Prop :=
  ∀ s (batch : Batch UInt8), ∃ events, (turn s).Returns events (some batch.first) ∧
    deliveries events = [batch.items]

section Delivered

variable {σ : Type} {turn : σ → TtyProg τ (Option UInt8)} {next : σ → UInt8 → Option σ} {s : σ}
  {events : List (TtyEvent τ)} {state : Option σ}

/-- One key in a loop that may have ended. -/
def press (next : σ → UInt8 → Option σ) (state : Option σ) (key : UInt8) : Option σ :=
  state.bind fun s => next s key

theorem foldl_press_none (keys : Bytes) : keys.foldl (press next) none = none := by
  induction keys with
  | nil => rfl
  | cons key keys ih => exact ih

/-- A run goes where the first bytes of its reads lead. -/
theorem KeyRun.deliveries (hturn : TakesFirst turn) (h : KeyRun turn next s events state) :
    ∃ reads : List (Batch UInt8), Calls.deliveries events = reads.map Batch.items ∧
      state = (reads.map Batch.first).foldl (press next) (some s) := by
  induction h with
  | stays s => exact ⟨[], rfl, rfl⟩
  | @ends s events key hreturns hnext =>
      obtain ⟨rest, hrest⟩ := hturn _ _ _ hreturns
      exact ⟨[⟨key, rest⟩], hrest, hnext.symm⟩
  | @turns s s' events more key state hreturns hnext _ ih =>
      obtain ⟨rest, hrest⟩ := hturn _ _ _ hreturns
      obtain ⟨reads, hreads, hstate⟩ := ih
      refine ⟨⟨key, rest⟩ :: reads, ?_, ?_⟩
      · rw [deliveries_append, hrest, hreads]
        rfl
      · have hpress : press next (some s) key = some s' := hnext
        rw [List.map_cons, List.foldl_cons, hpress]
        exact hstate

/-- A run goes where the first bytes lead of reads that it has taken, or that it was offered until
it ended. -/
def Offered (reads : List (Batch UInt8)) (events : List (TtyEvent τ)) (state : Option σ) : Prop :=
  Calls.deliveries events = reads.map Batch.items ∨
    (state = none ∧ Calls.deliveries events <+: reads.map Batch.items)

theorem KeyRun.state_eq (hturn : TakesFirst turn) (h : KeyRun turn next s events state)
    {reads : List (Batch UInt8)} (hoffered : Offered reads events state) :
    state = (reads.map Batch.first).foldl (press next) (some s) := by
  obtain ⟨taken, htaken, hstate⟩ := h.deliveries hturn
  rw [Offered, htaken] at hoffered
  rcases hoffered with hall | ⟨hended, hpart⟩
  · rw [hstate, List.map_injective_iff.2 Batch.items_injective hall]
  · -- the reads that were taken have ended the loop
    obtain ⟨more, rfl⟩ := (List.prefix_map_iff_of_injective Batch.items_injective).1 hpart
    rw [List.map_append, List.foldl_append, ← hstate, hended, foldl_press_none]

/-- There is a run for all reads, or up to the one that ends the loop. -/
theorem exists_keyRun (hturn : TakesAny turn) (next : σ → UInt8 → Option σ)
    (reads : List (Batch UInt8)) (s : σ) :
    ∃ events, KeyRun turn next s events ((reads.map Batch.first).foldl (press next) (some s)) ∧
      Offered reads events ((reads.map Batch.first).foldl (press next) (some s)) := by
  induction reads generalizing s with
  | nil => exact ⟨[], .stays s, Or.inl rfl⟩
  | cons batch reads ih =>
      obtain ⟨events, hreturns, hdelivered⟩ := hturn s batch
      have hstep : ((batch :: reads).map Batch.first).foldl (press next) (some s) =
          (reads.map Batch.first).foldl (press next) (next s batch.first) := rfl
      rw [hstep]
      cases hnext : next s batch.first with
      | none =>
          rw [foldl_press_none]
          refine ⟨events, .ends hreturns hnext, Or.inr ⟨rfl, ?_⟩⟩
          rw [hdelivered, List.map_cons]
          exact List.cons_prefix_cons.2 ⟨rfl, List.nil_prefix⟩
      | some s' =>
          obtain ⟨more, hrun, hmore⟩ := ih s'
          refine ⟨events ++ more, .turns hreturns hnext hrun, ?_⟩
          rw [Offered, deliveries_append, hdelivered, List.map_cons]
          rcases hmore with hall | ⟨hended, hpart⟩
          · exact Or.inl (by rw [hall]; rfl)
          · exact Or.inr ⟨hended, List.cons_prefix_cons.2 ⟨rfl, hpart⟩⟩

end Delivered

/-! ### Both previews are loops over keys -/

section Previews

variable {deadline : Option ℕ} {turns : ℕ} {events : List (TtyEvent τ)} {key : UInt8}

theorem expired_returns {isExpired : Bool}
    (h : (expired deadline : TtyProg τ Bool).Returns events isExpired) :
    deliveries events = [] := by
  cases deadline with
  | none =>
      obtain ⟨rfl, -⟩ := Prog.ret_returns_iff.1 h
      rfl
  | some deadline =>
      obtain ⟨e₁, now, e₂, hnow, hrest, rfl⟩ := Prog.bind_returns_iff.1 h
      obtain ⟨rfl, -⟩ := Prog.ret_returns_iff.1 hrest
      obtain rfl := Prog.call_returns_iff.1 hnow
      rfl

/-- A key is the first byte of the one read of its turn. -/
theorem deliveries_of_readKey (h : (readKey deadline turns).Returns events (some key)) :
    ∃ rest, deliveries events = [key :: rest] := by
  induction turns generalizing events with
  | zero => exact absurd h Prog.not_unfinished_returns
  | succ turns ih =>
      rw [readKey] at h
      obtain ⟨e₁, isExpired, e₂, hexpired, hrest, rfl⟩ := Prog.bind_returns_iff.1 h
      rw [deliveries_append, expired_returns hexpired, List.nil_append]
      split at hrest
      · obtain ⟨-, hkey⟩ := Prog.ret_returns_iff.1 hrest
        cases hkey
      · obtain ⟨e₃, polled, e₄, hpoll, hturn, rfl⟩ := Prog.bind_returns_iff.1 hrest
        obtain rfl := Prog.call_returns_iff.1 hpoll
        rw [deliveries_append]
        have hnothing : deliveries [(⟨.poll INPUT_POLL_MS, polled⟩ : TtyEvent τ)] = [] := rfl
        rw [hnothing, List.nil_append]
        split at hturn
        · exact ih hturn
        · exact ih hturn
        · exact absurd hturn Prog.not_fail_returns
        · simp only [read, Prog.bind_returns_iff, Prog.call_returns_iff,
            Prog.ofExcept_returns_iff, Prog.pure_eq, Prog.ret_returns_iff] at hturn
          obtain ⟨_, bytes, _, ⟨_, answer, _, rfl, ⟨rfl, hanswer⟩, rfl⟩, ⟨rfl, hkey⟩, rfl⟩ := hturn
          cases answer with
          | error message => cases hanswer
          | ok bytes' =>
              obtain rfl := Except.ok.inj hanswer
              obtain ⟨rest, rfl⟩ := List.head?_eq_some_iff.1 hkey.symm
              exact ⟨rest, rfl⟩

theorem takesFirst_readKey {σ : Type} :
    TakesFirst fun _ : σ => (readKey deadline turns : TtyProg τ (Option UInt8)) :=
  fun _ _ _ h => deliveries_of_readKey h

/-- Any batch of keys may arrive before the preview closes by itself. -/
theorem takesAny_readKey {σ : Type} (hdeadline : deadline ≠ some 0) :
    TakesAny fun _ : σ => (readKey deadline (turns + 1) : TtyProg τ (Option UInt8)) := by
  intro _ batch
  obtain ⟨before, hexpired⟩ :
      ∃ before, (expired deadline : TtyProg τ Bool).Returns before false := by
    cases deadline with
    | none => exact ⟨[], Prog.Reaches.here _⟩
    | some deadline =>
        have hnow : decide (deadline ≤ 0) = false := by
          rw [decide_eq_false_iff_not]
          intro hle
          exact hdeadline (congrArg some (Nat.le_zero.1 hle))
        refine ⟨[⟨.instantNow, 0⟩],
          Prog.bind_returns_iff.2 ⟨[_], 0, [], Prog.call_returns_iff.2 rfl,
          Prog.ret_returns_iff.2 ⟨rfl, hnow.symm⟩, rfl⟩⟩
  refine ⟨before ++ [⟨.poll INPUT_POLL_MS, .ok 1⟩, ⟨.read 32, .ok batch.items⟩], ?_, ?_⟩
  · rw [readKey]
    refine Prog.bind_returns_iff.2 ⟨before, false, _, hexpired, ?_, rfl⟩
    exact Prog.Reaches.perform (Prog.Reaches.perform (Prog.Reaches.here _))
  · rw [deliveries_append, expired_returns hexpired]
    rfl

/-- One turn of the pager: a page, and a key. -/
def pageTurn (turns : ℕ) (deadline : Option ℕ) (label : String) (lines : List String)
    (rows : UInt16) (offset : ℕ) : TtyProg τ (Option UInt8) := do
  writeAll .body (renderTextPage label lines offset rows)
  flush .body
  readKey deadline turns

variable {label : String} {lines : List String} {rows : UInt16}

theorem takesFirst_pageTurn :
    TakesFirst (pageTurn turns deadline label lines rows : ℕ → TtyProg τ (Option UInt8)) := by
  intro offset events key h
  obtain ⟨e₁, _, e₂, hwrite, hrest, rfl⟩ := Prog.bind_returns_iff.1 h
  obtain ⟨e₃, _, e₄, hflush, hkey, rfl⟩ := Prog.bind_returns_iff.1 hrest
  have hwritten : deliveries e₁ = [] := by
    simp only [writeAll, Prog.bind_returns_iff, Prog.call_returns_iff,
      Prog.ofExcept_returns_iff] at hwrite
    obtain ⟨_, answer, _, rfl, ⟨rfl, -⟩, rfl⟩ := hwrite
    rfl
  have hflushed : deliveries e₃ = [] := by
    simp only [flush, Prog.bind_returns_iff, Prog.call_returns_iff,
      Prog.ofExcept_returns_iff] at hflush
    obtain ⟨_, answer, _, rfl, ⟨rfl, -⟩, rfl⟩ := hflush
    rfl
  rw [deliveries_append, deliveries_append, hwritten, hflushed]
  exact deliveries_of_readKey hkey

theorem takesAny_pageTurn (hdeadline : deadline ≠ some 0) :
    TakesAny (pageTurn (turns + 1) deadline label lines rows : ℕ → TtyProg τ (Option UInt8)) := by
  intro offset batch
  obtain ⟨events, hreturns, hdelivered⟩ :=
    takesAny_readKey hdeadline offset batch
  refine ⟨⟨.writeAll .body (renderTextPage label lines offset rows), .ok ()⟩ ::
    ⟨.flush .body, .ok ()⟩ :: events, ?_, hdelivered⟩
  exact Prog.Reaches.perform (Prog.Reaches.perform hreturns)

/-- The pager is a loop over keys. -/
theorem pagerLoop_eq (pageRows pages offset : ℕ) :
    (pagerLoop turns deadline label lines rows pageRows pages offset : TtyProg τ Unit) =
      keyLoop (pageTurn turns deadline label lines rows) (nextOffset pageRows lines.length) pages
        offset := by
  induction pages generalizing offset with
  | zero => rfl
  | succ pages ih =>
      rw [pagerLoop, keyLoop, pageTurn, Prog.bind_assoc]
      refine congrArg _ (funext fun _ => ?_)
      rw [Prog.bind_assoc]
      refine congrArg _ (funext fun _ => congrArg _ (funext fun key => ?_))
      cases key with
      | none => rfl
      | some key =>
          cases hnext : nextOffset pageRows lines.length offset key with
          | none => simp only [hnext]
          | some offset =>
              simp only [hnext]
              exact ih offset

/-- Where a key takes the preview of an image. -/
def nextRaster (_ : Unit) (key : UInt8) : Option Unit :=
  if key = ascii 'q' ∨ key = ESC then none else some ()

/-- The loop of the preview of an image is a loop over keys. -/
theorem rasterLoop_eq (keys : ℕ) :
    (rasterLoop turns deadline keys : TtyProg τ Unit) =
      keyLoop (fun _ => readKey deadline turns) nextRaster keys () := by
  induction keys with
  | zero => rfl
  | succ keys ih =>
      rw [rasterLoop, keyLoop]
      refine congrArg _ (funext fun key => ?_)
      cases key with
      | none => rfl
      | some key =>
          by_cases hquit : key = ascii 'q' ∨ key = ESC
          · simp only [nextRaster, if_pos hquit]
          · simp only [nextRaster, if_neg hquit]
            exact ih

/-! ### The state of a preview after some reads -/

/-- What is waited for gets longer, and nothing else changes. -/
theorem readKey_mono (h : (readKey deadline turns).Returns events (some key)) (more : ℕ) :
    (readKey deadline (turns + more)).Returns events (some key) := by
  induction turns generalizing events with
  | zero => exact absurd h Prog.not_unfinished_returns
  | succ turns ih =>
      rw [Nat.add_right_comm]
      rw [readKey] at h ⊢
      obtain ⟨e₁, isExpired, e₂, hexpired, hrest, rfl⟩ := Prog.bind_returns_iff.1 h
      refine Prog.bind_returns_iff.2 ⟨e₁, isExpired, e₂, hexpired, ?_, rfl⟩
      split at hrest
      · rename_i hdone
        rw [if_pos hdone]
        exact hrest
      · rename_i hdone
        rw [if_neg hdone]
        obtain ⟨e₃, polled, e₄, hpoll, hturn, rfl⟩ := Prog.bind_returns_iff.1 hrest
        refine Prog.bind_returns_iff.2 ⟨e₃, polled, e₄, hpoll, ?_, rfl⟩
        split at hturn
        · exact ih hturn
        · exact ih hturn
        · exact absurd hturn Prog.not_fail_returns
        · exact hturn

end Previews

end Calls

section States

open Calls

variable (τ : Type) (args : ScreenArgs) (path : PathBuf) (text : String) (viewport : Viewport)

/-- Where a key takes the preview of a text. -/
def nextText (text : String) (viewport : Viewport) : ℕ → UInt8 → Option ℕ :=
  nextOffset (pageLength viewport.rows) (wrappedTextLines text viewport.columns).length

/-- One turn of the preview of a text. -/
def textTurn (turns : ℕ) (deadline : Option ℕ) : ℕ → TtyProg τ (Option UInt8) :=
  pageTurn turns deadline (safeLabel path (saturatingSub viewport.columns 2))
    (wrappedTextLines text viewport.columns) viewport.rows

/-- **Where some reads take the preview of a text**: a run of its loop, in which `read` returned
these bytes, leads there.  Nothing is assumed of the other calls of the run, in particular not of
the clock. -/
def TextAfter (reads : List (Batch UInt8)) (state : Option ℕ) : Prop :=
  ∃ turns deadline before events,
    (closeDeadline args.exitAfterMs : TtyProg τ (Option ℕ)).Returns before deadline ∧
      KeyRun (textTurn τ path text viewport turns deadline) (nextText text viewport)
        0 events state ∧ Offered reads events state

/-- **Where some reads take the preview of an image.** -/
def RasterAfter (reads : List (Batch UInt8)) (state : Option Unit) : Prop :=
  ∃ turns deadline before events,
    (closeDeadline args.exitAfterMs : TtyProg τ (Option ℕ)).Returns before deadline ∧
      KeyRun (fun _ => (readKey deadline turns : TtyProg τ (Option UInt8))) nextRaster () events
        state ∧
      Offered reads events state

variable {τ args path text viewport} {reads : List (Batch UInt8)}

theorem deliveries_closeDeadline {exitAfterMs : Option UInt64} {deadline : Option ℕ}
    {events : List (TtyEvent τ)}
    (h : (closeDeadline exitAfterMs : TtyProg τ (Option ℕ)).Returns events deadline) :
    deliveries events = [] := by
  cases exitAfterMs with
  | none =>
      obtain ⟨rfl, -⟩ := Prog.ret_returns_iff.1 h
      rfl
  | some milliseconds =>
      obtain ⟨e₁, now, e₂, hnow, hrest, rfl⟩ := Prog.bind_returns_iff.1 h
      obtain ⟨rfl, -⟩ := Prog.ret_returns_iff.1 hrest
      obtain rfl := Prog.call_returns_iff.1 hnow
      rfl

/-- What is said of the loop of a text, the preview does. -/
theorem TextAfter.reaches {state : Option ℕ} (h : TextAfter τ args path text viewport reads state) :
    ∃ turns deadline fuel events,
      (pageText turns args path text viewport : TtyProg τ Unit).Reaches events
        (resume (textTurn τ path text viewport turns deadline)
          (nextText text viewport) fuel state) ∧
      Offered reads events state := by
  obtain ⟨turns, deadline, before, events, hdeadline, hrun, hoffered⟩ := h
  obtain ⟨count, hcount⟩ := hrun.reaches
  refine ⟨turns + count, deadline, turns, before ++ events, ?_, ?_⟩
  · rw [pageText]
    refine Prog.bind_reaches_iff.2 (Or.inr ⟨before, deadline, events, hdeadline, ?_, rfl⟩)
    rw [pageRows_eq, pagerLoop_eq]
    refine hcount _ (fun offset events key hreturns => ?_) turns
    obtain ⟨e₁, _, e₂, hwrite, hrest, rfl⟩ := Prog.bind_returns_iff.1 hreturns
    obtain ⟨e₃, _, e₄, hflush, hkey, rfl⟩ := Prog.bind_returns_iff.1 hrest
    exact Prog.bind_returns_iff.2 ⟨e₁, _, _, hwrite, Prog.bind_returns_iff.2
      ⟨e₃, _, e₄, hflush, readKey_mono hkey count, rfl⟩, rfl⟩
  · rw [Offered, deliveries_append, deliveries_closeDeadline hdeadline, List.nil_append]
    exact hoffered

/-- What is said of the loop of an image, the preview does. -/
theorem RasterAfter.reaches {state : Option Unit} (h : RasterAfter τ args reads state)
    (placement : RasterPlacement) (renderer : Renderer) (wireImage : Bytes) :
    ∃ turns deadline fuel events,
      (drawRaster turns args path viewport placement renderer wireImage : TtyProg τ Unit).Reaches
        events (resume (fun _ => readKey deadline turns) nextRaster fuel state) ∧
      Offered reads events state := by
  obtain ⟨turns, deadline, before, events, hdeadline, hrun, hoffered⟩ := h
  obtain ⟨count, hcount⟩ := hrun.reaches
  have hdelivered : deliveries (before ++ events) = deliveries events := by
    rw [deliveries_append, deliveries_closeDeadline hdeadline, List.nil_append]
  refine ⟨turns + count, deadline, turns,
    ⟨.writeAll .body (rasterPosition viewport placement), .ok ()⟩ ::
      ⟨.writeAll .body wireImage, .ok ()⟩ ::
      ⟨.writeAll .body (rasterStatus path viewport renderer), .ok ()⟩ ::
      ⟨.flush .body, .ok ()⟩ :: (before ++ events), ?_, ?_⟩
  · have hwaits : (closeDeadline args.exitAfterMs >>= fun deadline =>
        (rasterLoop (turns + count) deadline (turns + count) : TtyProg τ Unit)).Reaches
        (before ++ events)
        (resume (fun _ => readKey deadline (turns + count)) nextRaster turns state) := by
      refine Prog.bind_reaches_iff.2 (Or.inr ⟨before, deadline, events, hdeadline, ?_, rfl⟩)
      rw [rasterLoop_eq]
      exact hcount _ (fun _ events key hkey => readKey_mono hkey count) turns
    exact Prog.Reaches.perform (Prog.Reaches.perform (Prog.Reaches.perform
      (Prog.Reaches.perform hwaits)))
  · rw [Offered, ← hdelivered] at hoffered
    exact hoffered

/-- Some instant to close at that has not come. -/
theorem exists_deadline (exitAfterMs : Option UInt64) :
    ∃ deadline before, (closeDeadline exitAfterMs : TtyProg τ (Option ℕ)).Returns before deadline ∧
      deadline ≠ some 0 := by
  cases exitAfterMs with
  | none => exact ⟨none, [], Prog.Reaches.here _, Option.some_ne_none 0 ∘ Eq.symm⟩
  | some milliseconds =>
      refine ⟨_, [⟨.instantNow, 1⟩], Prog.Reaches.perform (Prog.Reaches.here _), ?_⟩
      unfold checkedAdd
      split
      · intro hzero
        have := Option.some.inj hzero
        omega
      · exact Option.some_ne_none 0 ∘ Eq.symm

/-- **The preview of a text goes where the first bytes of the reads lead.** -/
theorem textAfter_iff {state : Option ℕ} : TextAfter τ args path text viewport reads state ↔
    state = (reads.map Batch.first).foldl (press (nextText text viewport)) (some 0) := by
  constructor
  · rintro ⟨turns, deadline, before, events, -, hrun, hoffered⟩
    exact hrun.state_eq takesFirst_pageTurn hoffered
  · rintro rfl
    obtain ⟨deadline, before, hdeadline, hne⟩ := exists_deadline (τ := τ) args.exitAfterMs
    have hturn : TakesAny (textTurn τ path text viewport 1 deadline) := takesAny_pageTurn hne
    obtain ⟨events, hrun, hoffered⟩ := exists_keyRun hturn (nextText text viewport) reads 0
    exact ⟨1, deadline, before, events, hdeadline, hrun, hoffered⟩

/-- **The preview of an image goes where the first bytes of the reads lead.** -/
theorem rasterAfter_iff {state : Option Unit} : RasterAfter τ args reads state ↔
    state = (reads.map Batch.first).foldl (press nextRaster) (some ()) := by
  constructor
  · rintro ⟨turns, deadline, before, events, -, hrun, hoffered⟩
    exact hrun.state_eq takesFirst_readKey hoffered
  · rintro rfl
    obtain ⟨deadline, before, hdeadline, hne⟩ := exists_deadline (τ := τ) args.exitAfterMs
    have hturn : TakesAny fun _ : Unit => (readKey deadline 1 : TtyProg τ (Option UInt8)) :=
      takesAny_readKey hne
    obtain ⟨events, hrun, hoffered⟩ := exists_keyRun hturn nextRaster reads ()
    exact ⟨1, deadline, before, events, hdeadline, hrun, hoffered⟩

/-- A preview that `q` closes is closed by it wherever it stands. -/
theorem foldl_press_of_mem {σ : Type} {next : σ → UInt8 → Option σ} {key : UInt8}
    (hcloses : ∀ s, next s key = none) {keys : Bytes} (h : key ∈ keys) (state : Option σ) :
    keys.foldl (press next) state = none := by
  obtain ⟨before, after, rfl⟩ := List.append_of_mem h
  have hpress : ∀ state, press next state key = none := by
    intro state
    cases state with
    | none => rfl
    | some s => exact hcloses s
  rw [List.foldl_append, List.foldl_cons, hpress, foldl_press_none]

variable (τ args path text viewport reads)

/-- **No key is lost to grouping**: after each of the reads both previews are where the same bytes
take them one by one, and a `q` among these bytes has closed them. -/
structure KeysKept : Prop where
  pager : ∀ part, part <+: reads → ∀ state,
    TextAfter τ args path text viewport part state ↔
      TextAfter τ args path text viewport (singly (allItems part)) state
  raster : ∀ part, part <+: reads → ∀ state,
    RasterAfter τ args part state ↔ RasterAfter τ args (singly (allItems part)) state
  quits : ∀ part, part <+: reads → ascii 'q' ∈ allItems part →
    (∀ state, TextAfter τ args path text viewport part state → state = none) ∧
      ∀ state, RasterAfter τ args part state → state = none

variable {τ args path text viewport reads}

theorem textAfter_singly {keys : Bytes} {state : Option ℕ} :
    TextAfter τ args path text viewport (singly keys) state ↔
      state = keys.foldl (press (nextText text viewport)) (some 0) := by
  rw [textAfter_iff, Batches.firsts_singly]

theorem rasterAfter_singly {keys : Bytes} {state : Option Unit} :
    RasterAfter τ args (singly keys) state ↔
      state = keys.foldl (press nextRaster) (some ()) := by
  rw [rasterAfter_iff, Batches.firsts_singly]

/-- **Keys are kept** exactly when the bytes of every read behind its first one would have left the
previews where the first one took them. -/
theorem keys_kept_iff (τ : Type) (args : ScreenArgs) (path : PathBuf) (text : String)
    (viewport : Viewport) (reads : List (Batch UInt8)) :
    KeysKept τ args path text viewport reads ↔
      Harmless (press (nextText text viewport)) (some 0) reads ∧
        Harmless (press nextRaster) (some ()) reads := by
  constructor
  · intro h
    constructor
    · refine Batches.firsts_agree_iff.1 fun part hpart => ?_
      exact textAfter_singly.1 ((h.pager part hpart _).1 (textAfter_iff.2 rfl))
    · refine Batches.firsts_agree_iff.1 fun part hpart => ?_
      exact rasterAfter_singly.1 ((h.raster part hpart _).1 (rasterAfter_iff.2 rfl))
  · rintro ⟨htext, hraster⟩
    refine ⟨fun part hpart state => ?_, fun part hpart state => ?_,
      fun part hpart hquit => ⟨?_, ?_⟩⟩
    · rw [textAfter_iff, textAfter_singly, Batches.firsts_agree_iff.2 htext part hpart]
    · rw [rasterAfter_iff, rasterAfter_singly, Batches.firsts_agree_iff.2 hraster part hpart]
    · intro state hstate
      rw [textAfter_iff.1 hstate, Batches.firsts_agree_iff.2 htext part hpart]
      exact foldl_press_of_mem (fun _ => rfl) hquit _
    · intro state hstate
      rw [rasterAfter_iff.1 hstate, Batches.firsts_agree_iff.2 hraster part hpart]
      exact foldl_press_of_mem (fun _ => rfl) hquit _

/-- One read that returns `jq` turns a page and leaves both previews open, while the two bytes one
after the other close them. -/
theorem quit_behind_another_key_lost :
    ¬ ∀ (τ : Type) (args : ScreenArgs) (path : PathBuf) (text : String) (viewport : Viewport)
        (reads : List (Batch UInt8)), KeysKept τ args path text viewport reads := by
  intro h
  have hkept := h Unit ⟨[], none, 1⟩ [] "a" ⟨80, 24, none, none⟩ [⟨ascii 'j', [ascii 'q']⟩]
  have hclosed := (hkept.quits _ List.prefix_rfl (by decide)).2 _ (rasterAfter_iff.2 rfl)
  revert hclosed
  decide

end States

end TermInterop
