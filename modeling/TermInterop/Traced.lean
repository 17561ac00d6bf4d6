/-
Programs that act on an environment.

A program that performs operations on a device is modelled by what it does against a given script
of the environment's answers: the operations it performs, in order, and its outcome.  There is no
outcome where the script ends before the program does; otherwise it is a value or an error.

Programs are sequenced as usual.  All reasoning goes through one relation, `Traced.Returns`: a
program performs exactly these operations and returns this value.

Main definitions:

* `Traced` — the operations of a program and its outcome;
* `Traced.emit`, `Traced.fail`, `Traced.pending` — one operation, an error, the end of the script;
* `Traced.Returns` — the operations and the value of a program that returns.

Main results:

* `Traced.bind_returns_iff` — **what a sequence of programs returns**.
-/

import Mathlib

set_option relaxedAutoImplicit false
set_option autoImplicit false

/-- The operations of a program, and its outcome: nothing where the script of the environment
ends first. -/
structure Traced (ω ε α : Type) where
  ops : List ω
  outcome : Option (Except ε α)

namespace Traced

variable {ω ε α β : Type}

/-- One operation. -/
def emit (op : ω) : Traced ω ε Unit := ⟨[op], some (.ok ())⟩

/-- An error. -/
def fail (error : ε) : Traced ω ε α := ⟨[], some (.error error)⟩

/-- The script ends before the program does. -/
def pending : Traced ω ε α := ⟨[], none⟩

/-- A computation without operations. -/
def ofExcept (result : Except ε α) : Traced ω ε α := ⟨[], some result⟩

/-- Sequencing. -/
def andThen (x : Traced ω ε α) (f : α → Traced ω ε β) : Traced ω ε β :=
  match x.outcome with
  | some (.ok a) => ⟨x.ops ++ (f a).ops, (f a).outcome⟩
  | some (.error error) => ⟨x.ops, some (.error error)⟩
  | none => ⟨x.ops, none⟩

instance : Monad (Traced ω ε) where
  pure a := ⟨[], some (.ok a)⟩
  bind := andThen

/-- **The operations and the value of a program that returns.** -/
def Returns (x : Traced ω ε α) (ops : List ω) (a : α) : Prop := x = ⟨ops, some (.ok a)⟩

/-- Whether a program returns a value that passes a test. -/
def returnsWith (x : Traced ω ε α) (test : α → Bool) : Bool :=
  match x.outcome with
  | some (.ok a) => test a
  | _ => false

theorem exists_returns (x : Traced ω ε α) (test : α → Bool) (h : x.returnsWith test = true) :
    ∃ ops a, x.Returns ops a ∧ test a = true := by
  obtain ⟨ops, outcome⟩ := x
  match outcome, h with
  | some (.ok a), h => exact ⟨ops, a, rfl, h⟩

/-- A program returns at most one value. -/
theorem Returns.unique {x : Traced ω ε α} {ops₁ ops₂ : List ω} {a₁ a₂ : α}
    (h₁ : x.Returns ops₁ a₁) (h₂ : x.Returns ops₂ a₂) : ops₁ = ops₂ ∧ a₁ = a₂ := by
  have heq : (⟨ops₁, some (.ok a₁)⟩ : Traced ω ε α) = ⟨ops₂, some (.ok a₂)⟩ := h₁.symm.trans h₂
  simpa using heq

@[simp] theorem pure_returns_iff {a b : α} {ops : List ω} :
    (pure a : Traced ω ε α).Returns ops b ↔ ops = [] ∧ a = b := by
  simp only [Returns, pure, mk.injEq, Option.some_inj, Except.ok.injEq]
  exact and_congr_left fun _ => eq_comm

@[simp] theorem emit_returns_iff {op : ω} {ops : List ω} {u : Unit} :
    (emit op : Traced ω ε Unit).Returns ops u ↔ ops = [op] := by
  simp only [Returns, emit, mk.injEq, and_true]
  exact eq_comm

@[simp] theorem not_fail_returns {error : ε} {ops : List ω} {a : α} :
    ¬ (fail error : Traced ω ε α).Returns ops a := by
  simp [Returns, fail]

@[simp] theorem not_pending_returns {ops : List ω} {a : α} :
    ¬ (pending : Traced ω ε α).Returns ops a := by
  simp [Returns, pending]

@[simp] theorem ofExcept_returns_iff {result : Except ε α} {ops : List ω} {a : α} :
    (ofExcept result : Traced ω ε α).Returns ops a ↔ ops = [] ∧ result = .ok a := by
  simp only [Returns, ofExcept, mk.injEq, Option.some_inj]
  exact and_congr_left fun _ => eq_comm

/-- **What a sequence of programs returns.** -/
theorem bind_returns_iff {x : Traced ω ε α} {f : α → Traced ω ε β} {ops : List ω} {b : β} :
    (x >>= f).Returns ops b ↔
      ∃ ops₁ a ops₂, x.Returns ops₁ a ∧ (f a).Returns ops₂ b ∧ ops = ops₁ ++ ops₂ := by
  obtain ⟨xops, xout⟩ := x
  constructor
  · intro h
    cases xout with
    | none => simp [Returns, bind, andThen] at h
    | some result =>
        cases result with
        | error error => simp [Returns, bind, andThen] at h
        | ok a =>
            simp only [Returns, bind, andThen, mk.injEq] at h
            obtain ⟨rfl, hout⟩ := h
            refine ⟨xops, a, (f a).ops, rfl, ?_, rfl⟩
            rw [Returns, ← hout]
  · rintro ⟨ops₁, a, ops₂, hx, hf, rfl⟩
    obtain ⟨rfl, rfl⟩ := Traced.mk.inj hx
    rw [Returns] at hf
    simp [Returns, bind, andThen, hf]

end Traced
