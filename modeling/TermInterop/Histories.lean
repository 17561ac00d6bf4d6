/-
Concurrent calls on a shared system.

Any number of calls run at the same time.  Each runs its own program, and the operations of all of
them are the labels of one run of the system, in the order in which the system performed them.  A
history is such a run in which every call has been obeying its program so far; the silent steps of
the system are what happens outside of all calls.

Main definitions:

* `Histories.project` — the operations of one call.

Main results:

* `Histories.project_eq_cons_iff` — where an operation of a call stands in the history;
* `Histories.always_of_reaches` — **what always holds in a program holds in every history**.
-/

import TermInterop.Prog

set_option relaxedAutoImplicit false
set_option autoImplicit false

namespace Histories

variable {ι : Type} [DecidableEq ι] {Op : Type} {Ans : Op → Type} {ε α : Type}

/-- The operations of one call, in order. -/
def project (i : ι) : List (ι × Prog.Event Ans) → List (Prog.Event Ans)
  | [] => []
  | label :: labels => if label.1 = i then label.2 :: project i labels else project i labels

@[simp] theorem project_nil (i : ι) : project i ([] : List (ι × Prog.Event Ans)) = [] := rfl

@[simp] theorem project_append (i : ι) (l₁ l₂ : List (ι × Prog.Event Ans)) :
    project i (l₁ ++ l₂) = project i l₁ ++ project i l₂ := by
  induction l₁ with
  | nil => rfl
  | cons label l₁ ih =>
      by_cases h : label.1 = i
      · simp [project, h, ih]
      · simp [project, h, ih]

/-- The operations of one call are its operations. -/
@[simp] theorem project_map_self (i : ι) (events : List (Prog.Event Ans)) :
    project i (events.map fun e => (i, e)) = events := by
  induction events with
  | nil => rfl
  | cons e events ih => simp [project, ih]

/-- The operations of one call are no operations of another. -/
theorem project_map_of_ne {i j : ι} (h : j ≠ i) (events : List (Prog.Event Ans)) :
    project i (events.map fun e => (j, e)) = [] := by
  induction events with
  | nil => rfl
  | cons e events ih => simp [project, h, ih]

theorem mem_project_iff {i : ι} {e : Prog.Event Ans} {labels : List (ι × Prog.Event Ans)} :
    e ∈ project i labels ↔ (i, e) ∈ labels := by
  induction labels with
  | nil => simp
  | cons label labels ih =>
      obtain ⟨j, d⟩ := label
      by_cases h : j = i
      · simp [project, h, ih]
      · simp [project, h, ih, Ne.symm h]

/-- **Where an operation of a call stands**: the other calls may act before and after it. -/
theorem project_eq_cons_iff {i : ι} {e : Prog.Event Ans} {events : List (Prog.Event Ans)}
    {labels : List (ι × Prog.Event Ans)} :
    project i labels = e :: events ↔
      ∃ l₁ l₂, labels = l₁ ++ (i, e) :: l₂ ∧ project i l₁ = [] ∧ project i l₂ = events := by
  constructor
  · intro h
    induction labels with
    | nil => cases h
    | cons label labels ih =>
        obtain ⟨j, d⟩ := label
        by_cases hj : j = i
        · rw [project, if_pos hj] at h
          obtain ⟨rfl, hrest⟩ := List.cons.inj h
          exact ⟨[], labels, by rw [hj]; rfl, rfl, hrest⟩
        · rw [project, if_neg hj] at h
          obtain ⟨l₁, l₂, rfl, h₁, h₂⟩ := ih h
          exact ⟨(j, d) :: l₁, l₂, rfl, by rw [project, if_neg hj, h₁], h₂⟩
  · rintro ⟨l₁, l₂, rfl, h₁, h₂⟩
    simp [project, h₁, h₂]

/-- Where an operation stands that comes after others of the same call. -/
theorem exists_of_project_eq_append {i : ι} {e : Prog.Event Ans}
    {before after : List (Prog.Event Ans)} {labels : List (ι × Prog.Event Ans)}
    (h : project i labels = before ++ e :: after) :
    ∃ l₁ l₂, labels = l₁ ++ (i, e) :: l₂ ∧ project i l₁ = before ∧ project i l₂ = after := by
  induction before generalizing labels with
  | nil =>
      obtain ⟨l₁, l₂, hlabels, h₁, h₂⟩ := project_eq_cons_iff.1 h
      exact ⟨l₁, l₂, hlabels, h₁, h₂⟩
  | cons d before ih =>
      obtain ⟨l₁, l₂, rfl, h₁, h₂⟩ := project_eq_cons_iff.1 h
      obtain ⟨l₃, l₄, rfl, h₃, h₄⟩ := ih h₂
      refine ⟨l₁ ++ (i, d) :: l₃, l₄, by simp, ?_, h₄⟩
      simp [project, h₁, h₃]

/-- **What always holds in a program holds in every history** in which a call has been obeying
it. -/
theorem always_of_reaches {x left : Prog Op Ans ε α} {i : ι}
    {P : List (Prog.Event Ans) → Prog.Event Ans → Prop} (hP : Prog.Always P [] x)
    {past rest : List (ι × Prog.Event Ans)} {e : Prog.Event Ans}
    (h : x.Reaches (project i (past ++ (i, e) :: rest)) left) : P (project i past) e := by
  have hproject : project i (past ++ (i, e) :: rest) = project i past ++ e :: project i rest := by
    rw [project_append]
    simp [project]
  simpa using hP.of_reaches h hproject

end Histories
