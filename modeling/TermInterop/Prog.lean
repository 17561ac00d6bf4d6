/-
Programs that perform operations one at a time.

A program is a tree: it has returned, it has failed, or it performs an operation and goes on with
the answer.  A loop that is cut off after some number of turns ends as `unfinished`, which is
neither a value nor a failure.  Unlike a trace, such a tree can be run against an environment that
decides its answers step by step, so that other programs may act between any two operations.

What needs no operation is a sequence of checks, the first failing one of which gives the error.
Three shapes of check are enough: a condition, an optional value that must be there, and an error
that is translated.  Each comes with the one lemma that says when it succeeds.

What a program does is described by `Reaches`: after these operations with these answers, this
program is left.  Three rules are enough to reason about programs.  `bind_returns_iff` takes a
sequence apart, `Always` collects what holds of every operation together with the ones before it,
and `Ensures` says that a program returns a good value as long as the answers are good.

Main definitions:

* `Checks.ensure`, `Checks.okOr`, `Checks.mapErr` — the three shapes of a check;
* `Prog` — programs, with their sequencing;
* `Prog.Reaches`, `Prog.Returns` — what is left after some operations;
* `Prog.Always` — what holds of every operation in every run;
* `Prog.Ensures` — under good answers a program can only return, and only a good value;
* `Prog.Ends` — a run to the end, with a value or a failure;
* `Prog.result`, `Prog.finally_`, `Prog.onFailure` — catching a failure, and cleaning up;
* `Prog.caught`, `Prog.mapError` — catching a failure, or failing under another error.

Main results:

* `Checks.bind_eq_ok_iff` — **a sequence of checks succeeds exactly when its parts do**;
* `Prog.bind_reaches_iff`, `Prog.bind_returns_iff` — **runs of a sequence are runs of its parts**;
* `Prog.Always.of_reaches`, `Prog.Always.bind` — the rules of `Always`;
* `Prog.Ensures.of_reaches`, `Prog.Ensures.bind` — the rules of `Ensures`;
* `Prog.bind_ends_iff`, `Prog.finally_ends_iff`, `Prog.onFailure_ends_iff` — **how a run ends**.
-/

import Mathlib

set_option relaxedAutoImplicit false
set_option autoImplicit false

/-! ### Checks -/

namespace Checks

variable {ε δ α β : Type}

/-- A condition that must hold. -/
def ensure (holds : Bool) (error : ε) : Except ε Unit :=
  if holds then .ok () else .error error

/-- An optional value that must be there. -/
def okOr (value : Option α) (error : ε) : Except ε α :=
  match value with
  | some a => .ok a
  | none => .error error

/-- The same result under another error. -/
def mapErr (f : ε → δ) : Except ε α → Except δ α
  | .ok a => .ok a
  | .error error => .error (f error)

/-- **A sequence succeeds exactly when its parts do.** -/
theorem bind_eq_ok_iff {x : Except ε α} {f : α → Except ε β} {b : β} :
    (x >>= f) = .ok b ↔ ∃ a, x = .ok a ∧ f a = .ok b := by
  cases x with
  | error error => simp [bind, Except.bind]
  | ok a => simp [bind, Except.bind]

theorem ensure_eq_ok_iff {holds : Bool} {error : ε} {u : Unit} :
    ensure holds error = .ok u ↔ holds = true := by
  cases holds <;> simp [ensure]

theorem okOr_eq_ok_iff {value : Option α} {error : ε} {a : α} :
    okOr value error = .ok a ↔ value = some a := by
  cases value <;> simp [okOr]

theorem mapErr_eq_ok_iff {f : ε → δ} {x : Except ε α} {a : α} :
    mapErr f x = .ok a ↔ x = .ok a := by
  cases x <;> simp [mapErr]

end Checks

/-! ### Programs -/

/-- A program over operations `Op`, whose answers are typed by `Ans`. -/
inductive Prog (Op : Type) (Ans : Op → Type) (ε α : Type) : Type
  | ret (a : α)
  | fail (error : ε)
  | unfinished
  | perform (op : Op) (next : Ans op → Prog Op Ans ε α)

namespace Prog

variable {Op : Type} {Ans : Op → Type} {ε α β : Type}

/-- An operation with its answer. -/
abbrev Event (Ans : Op → Type) := (op : Op) × Ans op

/-! ### Sequencing -/

/-- Sequencing. -/
def andThen : Prog Op Ans ε α → (α → Prog Op Ans ε β) → Prog Op Ans ε β
  | ret a, f => f a
  | fail error, _ => fail error
  | unfinished, _ => unfinished
  | perform op next, f => perform op fun ans => andThen (next ans) f

instance : Monad (Prog Op Ans ε) where
  pure := ret
  bind := andThen

/-- One operation, for its answer. -/
def call (op : Op) : Prog Op Ans ε (Ans op) := perform op ret

/-- A computation without operations. -/
def ofExcept : Except ε α → Prog Op Ans ε α
  | .ok a => ret a
  | .error error => fail error

/-- A condition that must hold. -/
def ensure (holds : Bool) (error : ε) : Prog Op Ans ε Unit := if holds then ret () else fail error

section Equations

variable {f : α → Prog Op Ans ε β} {a : α} {error : ε}

@[simp] theorem pure_eq : (pure a : Prog Op Ans ε α) = ret a := rfl

@[simp] theorem ret_bind : (ret a : Prog Op Ans ε α) >>= f = f a := rfl

@[simp] theorem fail_bind : (fail error : Prog Op Ans ε α) >>= f = fail error := rfl

@[simp] theorem unfinished_bind : (unfinished : Prog Op Ans ε α) >>= f = unfinished := rfl

@[simp] theorem perform_bind {op : Op} {next : Ans op → Prog Op Ans ε α} :
    perform op next >>= f = perform op fun ans => next ans >>= f := rfl

/-- Sequences of programs may be regrouped. -/
theorem bind_assoc {γ : Type} (x : Prog Op Ans ε α) (f : α → Prog Op Ans ε β)
    (g : β → Prog Op Ans ε γ) : x >>= f >>= g = x >>= fun a => f a >>= g := by
  induction x with
  | ret a => rfl
  | fail error => rfl
  | unfinished => rfl
  | perform op next ih => exact congrArg (perform op) (funext ih)

@[simp] theorem ofExcept_ok : (ofExcept (.ok a) : Prog Op Ans ε α) = ret a := rfl

@[simp] theorem ofExcept_error : (ofExcept (.error error) : Prog Op Ans ε α) = fail error := rfl

end Equations

/-! ### Runs -/

/-- **What is left of a program** after some operations with their answers. -/
inductive Reaches : Prog Op Ans ε α → List (Event Ans) → Prog Op Ans ε α → Prop
  | here (x : Prog Op Ans ε α) : Reaches x [] x
  | perform {op : Op} {next : Ans op → Prog Op Ans ε α} {ans : Ans op} {events : List (Event Ans)}
      {left : Prog Op Ans ε α} :
      Reaches (next ans) events left → Reaches (perform op next) (⟨op, ans⟩ :: events) left

/-- **The operations of a program that returns**, and the value. -/
def Returns (x : Prog Op Ans ε α) (events : List (Event Ans)) (a : α) : Prop :=
  x.Reaches events (ret a)

variable {x y left : Prog Op Ans ε α} {f : α → Prog Op Ans ε β} {events : List (Event Ans)}
  {a : α} {b : β} {error : ε}

theorem ret_reaches_iff : (ret a).Reaches events left ↔ events = [] ∧ left = ret a := by
  constructor
  · intro h
    cases h with
    | here => exact ⟨rfl, rfl⟩
  · rintro ⟨rfl, rfl⟩
    exact Reaches.here _

theorem fail_reaches_iff : (fail error).Reaches events left ↔ events = [] ∧ left = fail error := by
  constructor
  · intro h
    cases h with
    | here => exact ⟨rfl, rfl⟩
  · rintro ⟨rfl, rfl⟩
    exact Reaches.here _

theorem unfinished_reaches_iff :
    (unfinished : Prog Op Ans ε α).Reaches events left ↔ events = [] ∧ left = unfinished := by
  constructor
  · intro h
    cases h with
    | here => exact ⟨rfl, rfl⟩
  · rintro ⟨rfl, rfl⟩
    exact Reaches.here _

/-- An operation that is performed gets its answer first. -/
theorem perform_reaches_iff {op : Op} {next : Ans op → Prog Op Ans ε α} :
    (perform op next).Reaches events left ↔
      (events = [] ∧ left = perform op next) ∨
        ∃ ans rest, events = ⟨op, ans⟩ :: rest ∧ (next ans).Reaches rest left := by
  constructor
  · intro h
    cases h with
    | here => exact Or.inl ⟨rfl, rfl⟩
    | perform hrest => exact Or.inr ⟨_, _, rfl, hrest⟩
  · rintro (⟨rfl, rfl⟩ | ⟨ans, rest, rfl, hrest⟩)
    · exact Reaches.here _
    · exact Reaches.perform hrest

/-- Runs compose. -/
theorem Reaches.append {e₁ e₂ : List (Event Ans)} (h₁ : x.Reaches e₁ y) (h₂ : y.Reaches e₂ left) :
    x.Reaches (e₁ ++ e₂) left := by
  induction h₁ with
  | here => exact h₂
  | perform _ ih => exact Reaches.perform (ih h₂)

/-- The first part of a sequence runs as it does alone. -/
theorem Reaches.bind_left (h : x.Reaches events y) : (x >>= f).Reaches events (y >>= f) := by
  induction h with
  | here => exact Reaches.here _
  | perform _ ih => exact Reaches.perform ih

/-- **What a sequence leaves**: the first part is still running, or it has returned and the second
part runs. -/
theorem bind_reaches_iff {z : Prog Op Ans ε β} :
    (x >>= f).Reaches events z ↔
      (∃ y, x.Reaches events y ∧ z = y >>= f) ∨
        ∃ e₁ a e₂, x.Returns e₁ a ∧ (f a).Reaches e₂ z ∧ events = e₁ ++ e₂ := by
  constructor
  · intro h
    induction x generalizing events with
    | ret a => exact Or.inr ⟨[], a, events, Reaches.here _, h, rfl⟩
    | fail error =>
        obtain ⟨rfl, rfl⟩ := fail_reaches_iff.1 h
        exact Or.inl ⟨_, Reaches.here _, rfl⟩
    | unfinished =>
        obtain ⟨rfl, rfl⟩ := unfinished_reaches_iff.1 h
        exact Or.inl ⟨_, Reaches.here _, rfl⟩
    | perform op next ih =>
        rw [perform_bind, perform_reaches_iff] at h
        rcases h with ⟨rfl, rfl⟩ | ⟨ans, rest, rfl, hrest⟩
        · exact Or.inl ⟨_, Reaches.here _, rfl⟩
        · rcases ih ans hrest with ⟨y, hy, rfl⟩ | ⟨e₁, a, e₂, h₁, h₂, rfl⟩
          · exact Or.inl ⟨y, Reaches.perform hy, rfl⟩
          · exact Or.inr ⟨_ :: e₁, a, e₂, Reaches.perform h₁, h₂, rfl⟩
  · rintro (⟨y, hy, rfl⟩ | ⟨e₁, a, e₂, h₁, h₂, rfl⟩)
    · exact hy.bind_left
    · exact (h₁.bind_left (f := f)).append h₂

theorem bind_eq_ret_iff : x >>= f = ret b ↔ ∃ a, x = ret a ∧ f a = ret b := by
  cases x with
  | ret a => simp
  | fail error => simp
  | unfinished => simp
  | perform op next => simp

/-- **What a sequence returns.** -/
theorem bind_returns_iff :
    (x >>= f).Returns events b ↔
      ∃ e₁ a e₂, x.Returns e₁ a ∧ (f a).Returns e₂ b ∧ events = e₁ ++ e₂ := by
  rw [Returns, bind_reaches_iff]
  constructor
  · rintro (⟨y, hy, hb⟩ | h)
    · obtain ⟨a, rfl, ha⟩ := bind_eq_ret_iff.1 hb.symm
      refine ⟨events, a, [], hy, ?_, (List.append_nil _).symm⟩
      rw [Returns, ha]
      exact Reaches.here _
    · exact h
  · exact Or.inr

@[simp] theorem ret_returns_iff {a' : α} :
    (ret a : Prog Op Ans ε α).Returns events a' ↔ events = [] ∧ a' = a := by
  rw [Returns, ret_reaches_iff, ret.injEq]

@[simp] theorem not_fail_returns : ¬ (fail error : Prog Op Ans ε α).Returns events a := by
  rw [Returns, fail_reaches_iff]
  simp

@[simp] theorem not_unfinished_returns : ¬ (unfinished : Prog Op Ans ε α).Returns events a := by
  rw [Returns, unfinished_reaches_iff]
  simp

@[simp] theorem call_returns_iff {op : Op} {ans : Ans op} :
    (call op : Prog Op Ans ε (Ans op)).Returns events ans ↔ events = [⟨op, ans⟩] := by
  rw [Returns, call, perform_reaches_iff]
  simp [ret_reaches_iff]

@[simp] theorem ofExcept_returns_iff {result : Except ε α} :
    (ofExcept result : Prog Op Ans ε α).Returns events a ↔ events = [] ∧ result = .ok a := by
  cases result with
  | ok a' => simp [ofExcept, eq_comm]
  | error error => simp [ofExcept]

@[simp] theorem ensure_returns_iff {holds : Bool} {u : Unit} :
    (ensure holds error : Prog Op Ans ε Unit).Returns events u ↔ events = [] ∧ holds = true := by
  cases holds <;> simp [ensure]

/-- A sequence that starts with an operation. -/
theorem call_bind_returns_iff {op : Op} {f : Ans op → Prog Op Ans ε β} :
    (call op >>= f).Returns events b ↔
      ∃ ans rest, events = ⟨op, ans⟩ :: rest ∧ (f ans).Returns rest b := by
  constructor
  · intro h
    obtain ⟨e₁, ans, rest, hcall, hrest, rfl⟩ := bind_returns_iff.1 h
    obtain rfl := call_returns_iff.1 hcall
    exact ⟨ans, rest, rfl, hrest⟩
  · rintro ⟨ans, rest, rfl, hrest⟩
    exact Reaches.perform hrest

/-- A sequence that starts with a result. -/
theorem ofExcept_bind_returns_iff {result : Except ε α} :
    (ofExcept result >>= f).Returns events b ↔ ∃ a, result = .ok a ∧ (f a).Returns events b := by
  cases result with
  | ok a => simp
  | error error => simp

/-- A sequence that starts with a check. -/
theorem ensure_bind_returns_iff {holds : Bool} {f : Unit → Prog Op Ans ε β} :
    (ensure holds error >>= f).Returns events b ↔ holds = true ∧ (f ()).Returns events b := by
  cases holds <;> simp [ensure]

/-! ### What holds of every operation -/

/-- Every operation of every run satisfies `P`, given the operations before it. -/
def Always (P : List (Event Ans) → Event Ans → Prop) :
    List (Event Ans) → Prog Op Ans ε α → Prop
  | past, perform op next =>
      ∀ ans, P past ⟨op, ans⟩ ∧ Always P (past ++ [⟨op, ans⟩]) (next ans)
  | _, ret _ => True
  | _, fail _ => True
  | _, unfinished => True

section Always

variable {P : List (Event Ans) → Event Ans → Prop} {past : List (Event Ans)}

/-- **Every operation of a run** satisfies what always holds. -/
theorem Always.of_reaches (h : Always P past x) (hrun : x.Reaches events left)
    {e₁ e₂ : List (Event Ans)} {e : Event Ans} (hevents : events = e₁ ++ e :: e₂) :
    P (past ++ e₁) e := by
  induction hrun generalizing past e₁ with
  | here => simp at hevents
  | @perform op next ans events left _ ih =>
      cases e₁ with
      | nil =>
          obtain ⟨rfl, -⟩ := List.cons.inj hevents
          simpa using (h ans).1
      | cons d e₁ =>
          obtain ⟨rfl, hrest⟩ := List.cons.inj hevents
          simpa using ih (h ans).2 hrest

/-- What holds of every operation may be weakened. -/
theorem Always.mono {P' : List (Event Ans) → Event Ans → Prop} (h : Always P past x)
    (hP : ∀ past e, P past e → P' past e) : Always P' past x := by
  induction x generalizing past with
  | ret a => trivial
  | fail error => trivial
  | unfinished => trivial
  | perform op next ih =>
      intro ans
      exact ⟨hP past _ (h ans).1, ih ans (h ans).2⟩

/-- The rule for sequences. -/
theorem Always.bind (hx : Always P past x)
    (hf : ∀ events a, x.Returns events a → Always P (past ++ events) (f a)) :
    Always P past (x >>= f) := by
  induction x generalizing past with
  | ret a => simpa using hf [] a (Reaches.here _)
  | fail error => trivial
  | unfinished => trivial
  | perform op next ih =>
      intro ans
      refine ⟨(hx ans).1, ih ans (hx ans).2 fun events a h => ?_⟩
      simpa using hf (⟨op, ans⟩ :: events) a (Reaches.perform h)

theorem Always.call {op : Op} (h : ∀ ans, P past ⟨op, ans⟩) :
    Always P past (call op : Prog Op Ans ε (Ans op)) :=
  fun ans => ⟨h ans, trivial⟩

theorem Always.ofExcept {result : Except ε α} :
    Always P past (ofExcept result : Prog Op Ans ε α) := by
  cases result <;> trivial

theorem Always.ensure {holds : Bool} :
    Always P past (ensure holds error : Prog Op Ans ε Unit) := by
  cases holds <;> trivial

end Always

/-! ### What good answers lead to -/

/-- As long as the answers satisfy `Q`, the program neither fails nor is cut off, and what it
returns satisfies `post`. -/
def Ensures (Q : Event Ans → Prop) (post : α → Prop) : Prog Op Ans ε α → Prop
  | ret a => post a
  | fail _ => False
  | unfinished => False
  | perform op next => ∀ ans, Q ⟨op, ans⟩ → Ensures Q post (next ans)

section Ensures

variable {Q : Event Ans → Prop} {post : α → Prop}

/-- What is left after good answers still leads to a good value. -/
theorem Ensures.of_reaches (h : Ensures Q post x) (hrun : x.Reaches events left)
    (hgood : ∀ e ∈ events, Q e) : Ensures Q post left := by
  induction hrun with
  | here => exact h
  | perform _ ih =>
      exact ih (h _ (hgood _ List.mem_cons_self)) fun e he => hgood e (List.mem_cons_of_mem _ he)

/-- **Under good answers a program waits for one or has returned a good value.** -/
theorem Ensures.waiting_or_returned (h : Ensures Q post x) (hrun : x.Reaches events left)
    (hgood : ∀ e ∈ events, Q e) :
    (∃ op next, left = perform op next) ∨ ∃ a, left = ret a ∧ post a := by
  have hleft := h.of_reaches hrun hgood
  cases left with
  | ret a => exact Or.inr ⟨a, rfl, hleft⟩
  | fail error => exact hleft.elim
  | unfinished => exact hleft.elim
  | perform op next => exact Or.inl ⟨op, next, rfl⟩

/-- The rule for sequences. -/
theorem Ensures.bind {mid : α → Prop} {post : β → Prop} (hx : Ensures Q mid x)
    (hf : ∀ a, mid a → Ensures Q post (f a)) : Ensures Q post (x >>= f) := by
  induction x with
  | ret a => exact hf a hx
  | fail error => exact hx
  | unfinished => exact hx
  | perform op next ih => exact fun ans hans => ih ans (hx ans hans)

theorem Ensures.call {op : Op} {post : Ans op → Prop} (h : ∀ ans, Q ⟨op, ans⟩ → post ans) :
    Ensures Q post (call op : Prog Op Ans ε (Ans op)) := h

theorem Ensures.ofExcept {result : Except ε α} (ha : result = .ok a) (h : post a) :
    Ensures Q post (ofExcept result : Prog Op Ans ε α) := by
  rw [ha]
  exact h

theorem Ensures.ensure {holds : Bool} {post : Unit → Prop} (h : holds = true) (hpost : post ()) :
    Ensures Q post (ensure holds error : Prog Op Ans ε Unit) := by
  rw [h]
  exact hpost

end Ensures

/-! ### Runs to the end -/

/-- A run to the end: after these operations the program has returned or failed. -/
def Ends (x : Prog Op Ans ε α) (events : List (Event Ans)) (r : Except ε α) : Prop :=
  x.Reaches events (ofExcept r)

/-- Catching a failure: the program that returns how another one ends. -/
def result : Prog Op Ans ε α → Prog Op Ans ε (Except ε α)
  | ret a => ret (.ok a)
  | fail error => ret (.error error)
  | unfinished => unfinished
  | perform op next => perform op fun ans => result (next ans)

/-- A cleanup that is performed when a program ends, whether it returns or fails. -/
def finally_ (x : Prog Op Ans ε α) (cleanup : Prog Op Ans ε Unit) : Prog Op Ans ε α := do
  let r ← x.result
  cleanup
  ofExcept r

/-- A cleanup that is performed when a program fails. -/
def onFailure (x : Prog Op Ans ε α) (cleanup : Prog Op Ans ε Unit) : Prog Op Ans ε α := do
  match ← x.result with
  | .ok a => ret a
  | .error error => do
      cleanup
      fail error

/-- A program whose failure is ignored. -/
def ignored (x : Prog Op Ans ε Unit) : Prog Op Ans ε Unit := do
  let _ ← x.result

/-- What always holds of a program holds when its failure is caught. -/
theorem Always.result {P : List (Event Ans) → Event Ans → Prop} {past : List (Event Ans)}
    (h : Always P past x) : Always P past x.result := by
  induction x generalizing past with
  | ret a => trivial
  | fail error => trivial
  | unfinished => trivial
  | perform op next ih =>
      intro ans
      exact ⟨(h ans).1, ih ans (h ans).2⟩

section Ends

variable {r : Except ε α}

theorem ends_ok_iff : x.Ends events (.ok a) ↔ x.Returns events a := Iff.rfl

@[simp] theorem ret_ends_iff : (ret a).Ends events r ↔ events = [] ∧ r = .ok a := by
  rw [Ends, ret_reaches_iff]
  cases r <;> simp

@[simp] theorem fail_ends_iff : (fail error).Ends events r ↔ events = [] ∧ r = .error error := by
  rw [Ends, fail_reaches_iff]
  cases r <;> simp

@[simp] theorem not_unfinished_ends : ¬ (unfinished : Prog Op Ans ε α).Ends events r := by
  rw [Ends, unfinished_reaches_iff]
  cases r <;> simp

@[simp] theorem ofExcept_ends_iff {r' : Except ε α} :
    (ofExcept r').Ends events r ↔ events = [] ∧ r = r' := by
  cases r' <;> simp

theorem perform_ends_iff {op : Op} {next : Ans op → Prog Op Ans ε α} :
    (perform op next).Ends events r ↔
      ∃ ans rest, events = ⟨op, ans⟩ :: rest ∧ (next ans).Ends rest r := by
  rw [Ends, perform_reaches_iff]
  refine or_iff_right ?_
  rintro ⟨-, h⟩
  cases r <;> cases h

@[simp] theorem call_ends_iff {op : Op} {r : Except ε (Ans op)} :
    (call op).Ends events r ↔ ∃ ans, events = [⟨op, ans⟩] ∧ r = .ok ans := by
  simp only [call, perform_ends_iff, ret_ends_iff]
  constructor
  · rintro ⟨ans, rest, rfl, rfl, rfl⟩
    exact ⟨ans, rfl, rfl⟩
  · rintro ⟨ans, rfl, rfl⟩
    exact ⟨ans, [], rfl, rfl, rfl⟩

/-- **How a sequence ends**: the first part fails, or it returns and the second part ends. -/
theorem bind_ends_iff {r : Except ε β} :
    (x >>= f).Ends events r ↔
      (∃ error, x.Ends events (.error error) ∧ r = .error error) ∨
        ∃ e₁ a e₂, x.Ends e₁ (.ok a) ∧ (f a).Ends e₂ r ∧ events = e₁ ++ e₂ := by
  rw [Ends, bind_reaches_iff]
  constructor
  · rintro (⟨y, hy, hr⟩ | ⟨e₁, a, e₂, h₁, h₂, hsplit⟩)
    · cases y with
      | ret a =>
          refine Or.inr ⟨events, a, [], hy, ?_, (List.append_nil _).symm⟩
          rw [Ends, hr, ret_bind]
          exact Reaches.here _
      | fail error =>
          refine Or.inl ⟨error, hy, ?_⟩
          cases r with
          | ok b => cases hr
          | error error' =>
              obtain rfl := fail.inj hr
              rfl
      | unfinished => cases r <;> cases hr
      | perform op next => cases r <;> cases hr
    · exact Or.inr ⟨e₁, a, e₂, h₁, h₂, hsplit⟩
  · rintro (⟨error, hx, rfl⟩ | ⟨e₁, a, e₂, h₁, h₂, hsplit⟩)
    · exact Or.inl ⟨fail error, hx, rfl⟩
    · exact Or.inr ⟨e₁, a, e₂, h₁, h₂, hsplit⟩

/-- What follows a computation without operations. -/
theorem ofExcept_bind_ends {q : Except ε α} {r : Except ε β}
    (h : (ofExcept q >>= f).Ends events r) :
    events = [] ∨ ∃ a, q = .ok a ∧ (f a).Ends events r := by
  cases q with
  | ok a => exact Or.inr ⟨a, rfl, h⟩
  | error error => exact Or.inl (fail_ends_iff.1 h).1

/-- Catching a failure performs the same operations, and returns. -/
@[simp] theorem result_ends_iff {q : Except ε (Except ε α)} :
    x.result.Ends events q ↔ ∃ r, x.Ends events r ∧ q = .ok r := by
  induction x generalizing events with
  | ret a => simp [result]
  | fail error => simp [result]
  | unfinished => simp [result]
  | perform op next ih =>
      simp only [result, perform_ends_iff, ih]
      constructor
      · rintro ⟨ans, rest, rfl, r, hr, rfl⟩
        exact ⟨r, ⟨ans, rest, rfl, hr⟩, rfl⟩
      · rintro ⟨r, ⟨ans, rest, rfl, hr⟩, rfl⟩
        exact ⟨ans, rest, rfl, r, hr, rfl⟩

/-- A program whose failure is ignored returns. -/
@[simp] theorem ignored_ends_iff {x : Prog Op Ans ε Unit} {q : Except ε Unit} :
    x.ignored.Ends events q ↔ ∃ r, x.Ends events r ∧ q = .ok () := by
  simp only [ignored, bind_ends_iff, result_ends_iff, pure_eq, ret_ends_iff]
  constructor
  · rintro (⟨error, ⟨r, -, h⟩, -⟩ | ⟨e₁, _, _, ⟨r, hr, -⟩, ⟨rfl, rfl⟩, rfl⟩)
    · cases h
    · exact ⟨r, by rwa [List.append_nil], rfl⟩
  · rintro ⟨r, hr, rfl⟩
    exact Or.inr ⟨events, r, [], ⟨r, hr, rfl⟩, ⟨rfl, rfl⟩, (List.append_nil _).symm⟩

/-- **How a program with a cleanup ends**: the program ends, and the cleanup follows. -/
theorem finally_ends_iff {cleanup : Prog Op Ans ε Unit} :
    (x.finally_ cleanup).Ends events r ↔
      ∃ e₁ r₁ e₂ r₂, x.Ends e₁ r₁ ∧ cleanup.Ends e₂ r₂ ∧ events = e₁ ++ e₂ ∧
        r = match r₂ with
          | .ok () => r₁
          | .error error => .error error := by
  simp only [finally_, bind_ends_iff, result_ends_iff, ofExcept_ends_iff]
  constructor
  · rintro (⟨error, ⟨r', -, h⟩, -⟩ |
      ⟨e₁, _, e₂, ⟨r₁, h₁, h⟩, ⟨error, h₂, rfl⟩ | ⟨e₂, _, _, h₂, ⟨rfl, rfl⟩, rfl⟩, rfl⟩)
    · cases h
    · exact ⟨e₁, r₁, e₂, .error error, h₁, h₂, rfl, rfl⟩
    · obtain rfl := Except.ok.inj h
      exact ⟨e₁, _, e₂, .ok (), h₁, h₂, by rw [List.append_nil], rfl⟩
  · rintro ⟨e₁, r₁, e₂, r₂, h₁, h₂, rfl, rfl⟩
    refine Or.inr ⟨e₁, r₁, e₂, ⟨r₁, h₁, rfl⟩, ?_, rfl⟩
    cases r₂ with
    | ok u => exact Or.inr ⟨e₂, (), [], h₂, ⟨rfl, rfl⟩, (List.append_nil _).symm⟩
    | error error => exact Or.inl ⟨error, h₂, rfl⟩

/-- **How a program with a cleanup for failures ends.** -/
theorem onFailure_ends_iff {cleanup : Prog Op Ans ε Unit} :
    (x.onFailure cleanup).Ends events r ↔
      (∃ a, x.Ends events (.ok a) ∧ r = .ok a) ∨
        ∃ e₁ error e₂ r₂, x.Ends e₁ (.error error) ∧ cleanup.Ends e₂ r₂ ∧ events = e₁ ++ e₂ ∧
          r = match r₂ with
            | .ok () => .error error
            | .error error' => .error error' := by
  simp only [onFailure, bind_ends_iff, result_ends_iff]
  constructor
  · rintro (⟨error, ⟨r', -, h⟩, -⟩ | ⟨e₁, r₁, e₂, ⟨_, h₁, h⟩, hrest, rfl⟩)
    · cases h
    · obtain rfl := Except.ok.inj h
      cases r₁ with
      | ok a =>
          obtain ⟨rfl, rfl⟩ := ret_ends_iff.1 hrest
          exact Or.inl ⟨a, by rwa [List.append_nil], rfl⟩
      | error error =>
          simp only [bind_ends_iff, fail_ends_iff] at hrest
          rcases hrest with ⟨error', h₂, rfl⟩ | ⟨e₂, _, _, h₂, ⟨rfl, rfl⟩, rfl⟩
          · exact Or.inr ⟨e₁, error, e₂, .error error', h₁, h₂, rfl, rfl⟩
          · exact Or.inr ⟨e₁, error, e₂, .ok (), h₁, h₂, by rw [List.append_nil], rfl⟩
  · rintro (⟨a, h₁, rfl⟩ | ⟨e₁, error, e₂, r₂, h₁, h₂, rfl, rfl⟩)
    · exact Or.inr ⟨events, .ok a, [], ⟨_, h₁, rfl⟩, ret_ends_iff.2 ⟨rfl, rfl⟩,
        (List.append_nil _).symm⟩
    · refine Or.inr ⟨e₁, .error error, e₂, ⟨_, h₁, rfl⟩, ?_, rfl⟩
      simp only [bind_ends_iff, fail_ends_iff]
      cases r₂ with
      | ok u => exact Or.inr ⟨e₂, (), [], h₂, ⟨rfl, rfl⟩, (List.append_nil _).symm⟩
      | error error' => exact Or.inl ⟨error', h₂, rfl⟩

end Ends

/-! ### Other errors -/

section Errors

variable {δ : Type}

/-- Catching a failure, in a program that may fail with other errors. -/
def caught : Prog Op Ans ε α → Prog Op Ans δ (Except ε α)
  | ret a => ret (.ok a)
  | fail error => ret (.error error)
  | unfinished => unfinished
  | perform op next => perform op fun ans => caught (next ans)

/-- The same program under another error. -/
def mapError (f : ε → δ) (x : Prog Op Ans ε α) : Prog Op Ans δ α := do
  let r ← x.caught
  ofExcept (r.mapError f)

/-- Catching a failure performs the same operations. -/
theorem caught_reaches_iff {left : Prog Op Ans δ (Except ε α)} :
    x.caught.Reaches events left ↔ ∃ y, x.Reaches events y ∧ left = y.caught := by
  induction x generalizing events with
  | ret a => simp [caught, ret_reaches_iff]
  | fail error => simp [caught, ret_reaches_iff, fail_reaches_iff]
  | unfinished => simp [caught, unfinished_reaches_iff]
  | perform op next ih =>
      simp only [caught, perform_reaches_iff, ih]
      constructor
      · rintro (⟨rfl, rfl⟩ | ⟨ans, rest, rfl, y, hy, rfl⟩)
        · exact ⟨_, Or.inl ⟨rfl, rfl⟩, rfl⟩
        · exact ⟨y, Or.inr ⟨ans, rest, rfl, hy⟩, rfl⟩
      · rintro ⟨y, ⟨rfl, rfl⟩ | ⟨ans, rest, rfl, hy⟩, rfl⟩
        · exact Or.inl ⟨rfl, rfl⟩
        · exact Or.inr ⟨ans, rest, rfl, y, hy, rfl⟩

@[simp] theorem caught_returns_iff {r : Except ε α} :
    (x.caught : Prog Op Ans δ (Except ε α)).Returns events r ↔ x.Ends events r := by
  rw [Returns, caught_reaches_iff]
  constructor
  · rintro ⟨y, hy, hr⟩
    cases y with
    | ret a =>
        obtain rfl := ret.inj hr
        exact hy
    | fail error =>
        obtain rfl := ret.inj hr
        exact hy
    | unfinished => cases hr
    | perform op next => cases hr
  · intro h
    refine ⟨ofExcept r, h, ?_⟩
    cases r <;> rfl

/-- What is caught is not lost. -/
@[simp] theorem caught_ends_iff {q : Except δ (Except ε α)} :
    x.caught.Ends events q ↔ ∃ r, x.Ends events r ∧ q = .ok r := by
  cases q with
  | ok r => simp [ends_ok_iff]
  | error error =>
      simp only [reduceCtorEq, and_false, exists_false, iff_false]
      rintro h
      obtain ⟨y, -, hy⟩ := caught_reaches_iff.1 h
      cases y <;> cases hy

@[simp] theorem mapError_ends_iff {f : ε → δ} {q : Except δ α} :
    (x.mapError f).Ends events q ↔ ∃ r, x.Ends events r ∧ q = r.mapError f := by
  simp only [mapError, bind_ends_iff, caught_ends_iff, ofExcept_ends_iff]
  constructor
  · rintro (⟨error, ⟨r, -, h⟩, -⟩ | ⟨e₁, r, _, ⟨r', hr, h⟩, ⟨rfl, rfl⟩, rfl⟩)
    · cases h
    · obtain rfl := Except.ok.inj h
      exact ⟨r, by rwa [List.append_nil], rfl⟩
  · rintro ⟨r, hr, rfl⟩
    exact Or.inr ⟨events, r, [], ⟨r, hr, rfl⟩, ⟨rfl, rfl⟩, (List.append_nil _).symm⟩

/-- A program under another error performs the same operations. -/
theorem mapError_reaches {f : ε → δ} {left : Prog Op Ans δ α}
    (h : (x.mapError f).Reaches events left) : ∃ y, x.Reaches events y := by
  rcases bind_reaches_iff.1 h with ⟨y, hy, -⟩ | ⟨e₁, r, e₂, hr, hrest, rfl⟩
  · obtain ⟨z, hz, -⟩ := caught_reaches_iff.1 hy
    exact ⟨z, hz⟩
  · have hnil : e₂ = [] := by
      cases hmap : r.mapError f with
      | ok a => exact (ret_reaches_iff.1 (hmap ▸ hrest)).1
      | error error => exact (fail_reaches_iff.1 (hmap ▸ hrest)).1
    rw [hnil, List.append_nil]
    exact ⟨_, caught_returns_iff.1 hr⟩

end Errors

/-! ### Cleanups that are still running -/

section Cleanups

/-- Catching a failure performs the same operations. -/
theorem result_reaches_iff {left : Prog Op Ans ε (Except ε α)} :
    x.result.Reaches events left ↔ ∃ y, x.Reaches events y ∧ left = y.result := by
  induction x generalizing events with
  | ret a => simp [result, ret_reaches_iff]
  | fail error => simp [result, ret_reaches_iff, fail_reaches_iff]
  | unfinished => simp [result, unfinished_reaches_iff]
  | perform op next ih =>
      simp only [result, perform_reaches_iff, ih]
      constructor
      · rintro (⟨rfl, rfl⟩ | ⟨ans, rest, rfl, y, hy, rfl⟩)
        · exact ⟨_, Or.inl ⟨rfl, rfl⟩, rfl⟩
        · exact ⟨y, Or.inr ⟨ans, rest, rfl, hy⟩, rfl⟩
      · rintro ⟨y, ⟨rfl, rfl⟩ | ⟨ans, rest, rfl, hy⟩, rfl⟩
        · exact Or.inl ⟨rfl, rfl⟩
        · exact Or.inr ⟨ans, rest, rfl, y, hy, rfl⟩

/-- A program with a cleanup begins like the program. -/
theorem Reaches.finally_ (h : x.Reaches events y) (cleanup : Prog Op Ans ε Unit) :
    (x.finally_ cleanup).Reaches events (y.finally_ cleanup) :=
  (result_reaches_iff.2 ⟨y, h, rfl⟩).bind_left

/-- **A program with a cleanup**: the program is running, or it has ended and the cleanup runs. -/
theorem finally_reaches {cleanup : Prog Op Ans ε Unit} {left : Prog Op Ans ε α}
    (h : (x.finally_ cleanup).Reaches events left) :
    (∃ y, x.Reaches events y ∧ left = y.finally_ cleanup) ∨
      ∃ e₁ r e₂ z, x.Ends e₁ r ∧ cleanup.Reaches e₂ z ∧ events = e₁ ++ e₂ ∧
        left = z >>= fun _ => ofExcept r := by
  rcases bind_reaches_iff.1 h with ⟨z, hz, rfl⟩ | ⟨e₁, r, e₂, hr, hrest, rfl⟩
  · obtain ⟨y, hy, rfl⟩ := result_reaches_iff.1 hz
    exact Or.inl ⟨y, hy, rfl⟩
  · obtain ⟨r', hr', heq⟩ := result_ends_iff.1 (ends_ok_iff.2 hr)
    obtain rfl := Except.ok.inj heq
    rcases bind_reaches_iff.1 hrest with ⟨z, hz, rfl⟩ | ⟨e₃, _, e₄, hc, hlast, rfl⟩
    · exact Or.inr ⟨e₁, r, e₂, z, hr', hz, rfl, rfl⟩
    · obtain ⟨rfl, rfl⟩ : e₄ = [] ∧ left = ofExcept r := by
        cases r with
        | ok a => exact ret_reaches_iff.1 hlast
        | error error => exact fail_reaches_iff.1 hlast
      exact Or.inr ⟨e₁, r, e₃, _, hr', hc, by rw [List.append_nil], rfl⟩

/-- **A program with a cleanup for failures**: the program is running or has returned, or it has
failed and the cleanup runs. -/
theorem onFailure_reaches {cleanup : Prog Op Ans ε Unit} {left : Prog Op Ans ε α}
    (h : (x.onFailure cleanup).Reaches events left) :
    (∃ y, x.Reaches events y) ∨
      ∃ e₁ error e₂ z, x.Ends e₁ (.error error) ∧ cleanup.Reaches e₂ z ∧ events = e₁ ++ e₂ := by
  rcases bind_reaches_iff.1 h with ⟨z, hz, rfl⟩ | ⟨e₁, r, e₂, hr, hrest, rfl⟩
  · obtain ⟨y, hy, -⟩ := result_reaches_iff.1 hz
    exact Or.inl ⟨y, hy⟩
  · obtain ⟨r', hr', heq⟩ := result_ends_iff.1 (ends_ok_iff.2 hr)
    obtain rfl := Except.ok.inj heq
    cases r with
    | ok a =>
        obtain ⟨rfl, -⟩ := ret_reaches_iff.1 hrest
        rw [List.append_nil]
        exact Or.inl ⟨_, hr'⟩
    | error error =>
        rcases bind_reaches_iff.1 hrest with ⟨z, hz, -⟩ | ⟨e₃, _, e₄, hc, hlast, rfl⟩
        · exact Or.inr ⟨e₁, error, e₂, z, hr', hz, rfl⟩
        · obtain ⟨rfl, -⟩ := fail_reaches_iff.1 hlast
          exact Or.inr ⟨e₁, error, e₃, _, hr', hc, by rw [List.append_nil]⟩

/-- A program whose failure is ignored performs the same operations. -/
theorem ignored_reaches {x left : Prog Op Ans ε Unit} (h : x.ignored.Reaches events left) :
    ∃ y, x.Reaches events y := by
  rcases bind_reaches_iff.1 h with ⟨z, hz, -⟩ | ⟨e₁, r, e₂, hr, hrest, rfl⟩
  · obtain ⟨y, hy, -⟩ := result_reaches_iff.1 hz
    exact ⟨y, hy⟩
  · obtain ⟨r', hr', -⟩ := result_ends_iff.1 (ends_ok_iff.2 hr)
    obtain ⟨rfl, -⟩ := ret_reaches_iff.1 hrest
    rw [List.append_nil]
    exact ⟨_, hr'⟩

theorem ofExcept_reaches {r : Except ε α} {left : Prog Op Ans ε α}
    (h : (ofExcept r).Reaches events left) : events = [] ∧ left = ofExcept r := by
  cases r with
  | ok a => exact ret_reaches_iff.1 h
  | error error => exact fail_reaches_iff.1 h

end Cleanups

/-! ### What every operation is like -/

/-- What always holds of every operation holds of the operations of a run. -/
theorem Always.forall_mem {p : Event Ans → Prop} {past : List (Event Ans)}
    (h : Always (fun _ e => p e) past x) (hrun : x.Reaches events left) : ∀ e ∈ events, p e := by
  intro e he
  obtain ⟨e₁, e₂, rfl⟩ := List.append_of_mem he
  exact h.of_reaches hrun rfl

/-- What holds of the operations of every run always holds. -/
theorem Always.of_forall_mem {p : Event Ans → Prop} {past : List (Event Ans)}
    (h : ∀ events left, x.Reaches events left → ∀ e ∈ events, p e) :
    Always (fun _ e => p e) past x := by
  induction x generalizing past with
  | ret a => trivial
  | fail error => trivial
  | unfinished => trivial
  | perform op next ih =>
      intro ans
      refine ⟨h [⟨op, ans⟩] (next ans) (.perform (.here _)) _ (List.mem_singleton_self _), ?_⟩
      refine ih ans fun events left hrun e he => ?_
      exact h (⟨op, ans⟩ :: events) left (.perform hrun) e (List.mem_cons_of_mem _ he)

/-- What always holds of a program and of its cleanup. -/
theorem Always.finally_ {p : Event Ans → Prop} {cleanup : Prog Op Ans ε Unit}
    (hx : ∀ past, Always (fun _ e => p e) past x)
    (hcleanup : ∀ past, Always (fun _ e => p e) past cleanup) (past : List (Event Ans)) :
    Always (fun _ e => p e) past (x.finally_ cleanup) :=
  (hx past).result.bind fun _ _ _ => (hcleanup _).bind fun _ _ _ => Always.ofExcept

/-- What always holds of a program holds when its failure is caught. -/
theorem Always.caught {P : List (Event Ans) → Event Ans → Prop} {past : List (Event Ans)}
    {δ : Type} (h : Always P past x) :
    Always P past (x.caught : Prog Op Ans δ (Except ε α)) := by
  induction x generalizing past with
  | ret a => trivial
  | fail error => trivial
  | unfinished => trivial
  | perform op next ih =>
      intro ans
      exact ⟨(h ans).1, ih ans (h ans).2⟩

/-! ### The same under another error -/

section MapError

variable {δ : Type} {g : ε → δ}

theorem mapError_returns_iff :
    (x.mapError g).Returns events a ↔ x.Returns events a := by
  rw [← ends_ok_iff, mapError_ends_iff, ← ends_ok_iff]
  constructor
  · rintro ⟨r, hr, hok⟩
    cases r with
    | ok a' =>
        obtain rfl := Except.ok.inj hok
        exact hr
    | error error => cases hok
  · exact fun h => ⟨.ok a, h, rfl⟩

theorem Always.mapError {P : List (Event Ans) → Event Ans → Prop} {past : List (Event Ans)}
    (h : Always P past x) : Always P past (x.mapError g) :=
  h.caught.bind fun _ _ _ => Always.ofExcept

theorem Ensures.mapError {Q : Event Ans → Prop} {post : α → Prop} (h : Ensures Q post x) :
    Ensures Q post (x.mapError g) := by
  induction x with
  | ret a => exact h
  | fail error => exact h.elim
  | unfinished => exact h.elim
  | perform op next ih => exact fun ans hans => ih ans (h ans hans)

end MapError

end Prog
