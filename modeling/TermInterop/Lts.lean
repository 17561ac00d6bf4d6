/-
Labelled transition systems with silent steps.

A system moves from state to state.  A labelled step is seen by whoever watches the system; a
silent step is not.  A run records the labels it shows, so that silent steps may happen at any
time between two labels, before the first and after the last.

Main definitions:

* `Lts` — the steps of a system;
* `Lts.Run` — the runs of a system, with the labels they show;
* `Lts.within` — a system while some condition holds.

Main results:

* `Lts.Run.append`, `Lts.run_append_iff`, `Lts.run_cons_iff` — runs compose, and split where their
  labels do;
* `Lts.run_nil_iff_of_not_silent`, `Lts.run_cons_iff_of_not_silent` — the same where every step is
  seen;
* `Lts.Run.invariant` — **what every step keeps, every run keeps**;
* `Lts.Run.history` — the same for what is true of a state and of the labels before it;
* `Lts.Run.refines` — **a run refines a run of an abstract system**;
* `Lts.Run.forall_mem_labels` — what an invariant says about the labels of a run.
-/

import Mathlib

set_option relaxedAutoImplicit false
set_option autoImplicit false

/-- The steps of a system: silent ones, and labelled ones. -/
structure Lts (S L : Type*) where
  silent : S → S → Prop
  step : S → L → S → Prop

namespace Lts

variable {S L : Type*} {M : Lts S L}

/-- The runs of a system, with the labels they show. -/
inductive Run (M : Lts S L) : S → List L → S → Prop
  | nil (s : S) : Run M s [] s
  | silent {s t u : S} {labels : List L} : M.silent s t → Run M t labels u → Run M s labels u
  | step {s t u : S} {label : L} {labels : List L} :
      M.step s label t → Run M t labels u → Run M s (label :: labels) u

/-- Runs compose. -/
theorem Run.append {s t u : S} {l₁ l₂ : List L} (h₁ : M.Run s l₁ t) (h₂ : M.Run t l₂ u) :
    M.Run s (l₁ ++ l₂) u := by
  induction h₁ with
  | nil s => exact h₂
  | silent hs _ ih => exact Run.silent hs (ih h₂)
  | step hs _ ih => exact Run.step hs (ih h₂)

/-- Steps that lead nowhere can follow each other. -/
theorem run_of_forall_step {s : S} {labels : List L} (h : ∀ label ∈ labels, M.step s label s) :
    M.Run s labels s := by
  induction labels with
  | nil => exact Run.nil s
  | cons label labels ih =>
      exact Run.step (h label List.mem_cons_self)
        (ih fun label' hmem => h label' (List.mem_cons_of_mem _ hmem))

/-- **Runs split where their labels do.** -/
theorem run_append_iff {s u : S} {l₁ l₂ : List L} :
    M.Run s (l₁ ++ l₂) u ↔ ∃ t, M.Run s l₁ t ∧ M.Run t l₂ u := by
  refine ⟨fun h => ?_, fun ⟨t, h₁, h₂⟩ => h₁.append h₂⟩
  generalize hl : l₁ ++ l₂ = labels at h
  induction h generalizing l₁ with
  | nil s =>
      obtain ⟨rfl, rfl⟩ := List.append_eq_nil_iff.1 hl
      exact ⟨s, Run.nil s, Run.nil s⟩
  | silent hs _ ih =>
      obtain ⟨t, h₁, h₂⟩ := ih hl
      exact ⟨t, Run.silent hs h₁, h₂⟩
  | @step s t u label labels hs hrun ih =>
      cases l₁ with
      | nil =>
          rw [List.nil_append] at hl
          subst hl
          exact ⟨s, Run.nil s, Run.step hs hrun⟩
      | cons label' l₁ =>
          obtain ⟨rfl, hrest⟩ := List.cons.inj hl
          obtain ⟨t', h₁, h₂⟩ := ih hrest
          exact ⟨t', Run.step hs h₁, h₂⟩

/-- A run that shows a label takes that step, after silent steps. -/
theorem run_cons_iff {s u : S} {label : L} {labels : List L} :
    M.Run s (label :: labels) u ↔
      ∃ t t', M.Run s [] t ∧ M.step t label t' ∧ M.Run t' labels u := by
  refine ⟨fun h => ?_, fun ⟨t, t', hs, hstep, hrun⟩ => hs.append (Run.step hstep hrun)⟩
  generalize hl : label :: labels = labels' at h
  induction h with
  | nil s => cases hl
  | silent hs _ ih =>
      obtain ⟨t, t', hrun, hstep, hrest⟩ := ih hl
      exact ⟨t, t', Run.silent hs hrun, hstep, hrest⟩
  | @step s t u label' labels' hs hrun ih =>
      obtain ⟨rfl, rfl⟩ := List.cons.inj hl
      exact ⟨s, t, Run.nil s, hs, hrun⟩

section Labelled

variable {s u : S} (hsilent : ∀ s t, ¬ M.silent s t)

include hsilent

/-- A system without silent steps stays where it is while it shows nothing. -/
theorem run_nil_iff_of_not_silent : M.Run s [] u ↔ u = s := by
  constructor
  · intro h
    cases h with
    | nil => rfl
    | silent hs _ => exact absurd hs (hsilent _ _)
  · rintro rfl
    exact Run.nil _

/-- A system without silent steps shows each of its steps. -/
theorem run_cons_iff_of_not_silent {label : L} {labels : List L} :
    M.Run s (label :: labels) u ↔ ∃ t, M.step s label t ∧ M.Run t labels u := by
  rw [run_cons_iff]
  constructor
  · rintro ⟨t, t', hs, hstep, hrun⟩
    obtain rfl := (run_nil_iff_of_not_silent hsilent).1 hs
    exact ⟨t', hstep, hrun⟩
  · rintro ⟨t', hstep, hrun⟩
    exact ⟨s, t', Run.nil s, hstep, hrun⟩

end Labelled

/-- **What every step keeps, every run keeps.**  The labelled steps only have to keep it for the
labels of the run. -/
theorem Run.invariant {I : S → Prop} {s t : S} {labels : List L} (h : M.Run s labels t)
    (hsilent : ∀ {s t}, M.silent s t → I s → I t)
    (hstep : ∀ {s t label}, label ∈ labels → M.step s label t → I s → I t) (hs : I s) : I t := by
  induction h with
  | nil s => exact hs
  | silent hst _ ih => exact ih hstep (hsilent hst hs)
  | step hst _ ih =>
      exact ih (fun hmem => hstep (List.mem_cons_of_mem _ hmem)) (hstep List.mem_cons_self hst hs)

/-- **What every step keeps of the past and the present, every run keeps.**  `past` lists the labels
before the run. -/
theorem Run.history {P : List L → S → Prop} {s t : S} {past labels : List L}
    (h : M.Run s labels t)
    (hsilent : ∀ {past s t}, M.silent s t → P past s → P past t)
    (hstep : ∀ {past s t label}, label ∈ labels → M.step s label t → P past s →
      P (past ++ [label]) t) (hs : P past s) : P (past ++ labels) t := by
  induction h generalizing past with
  | nil s => simpa using hs
  | silent hst _ ih => exact ih hstep (hsilent hst hs)
  | @step s t u label labels hst _ ih =>
      have hnext := ih (fun hmem => hstep (List.mem_cons_of_mem _ hmem))
        (hstep List.mem_cons_self hst hs)
      rwa [List.append_assoc, List.singleton_append] at hnext

/-- The same where something is known of every label and of the labels before it. -/
theorem Run.history_of_labels {P : List L → S → Prop} {D : List L → L → Prop} {s t : S}
    {labels : List L} (h : M.Run s labels t)
    (hlabels : ∀ past label rest, labels = past ++ label :: rest → D past label)
    (hsilent : ∀ {past s t}, M.silent s t → P past s → P past t)
    (hstep : ∀ {past s t label}, M.step s label t → D past label → P past s →
      P (past ++ [label]) t) (hs : P [] s) : P labels t := by
  suffices hall : ∀ past, (∀ l label rest, labels = l ++ label :: rest → D (past ++ l) label) →
      P past s → P (past ++ labels) t from hall [] hlabels hs
  clear hlabels hs
  induction h with
  | nil s =>
      intro past _ hs
      rwa [List.append_nil]
  | silent hst _ ih => exact fun past hlabels hs => ih past hlabels (hsilent hst hs)
  | @step s t u label labels hst _ ih =>
      intro past hlabels hs
      have hlabel := hlabels [] label labels rfl
      rw [List.append_nil] at hlabel
      have hrest := ih (past ++ [label]) (fun l label' rest heq => ?_) (hstep hst hlabel hs)
      · rwa [List.append_assoc, List.singleton_append] at hrest
      · rw [List.append_assoc, List.singleton_append]
        exact hlabels (label :: l) label' rest (by rw [heq]; rfl)

/-- **A run refines a run of an abstract system**, when every silent step leaves the abstract state,
and so does every step whose label is not seen, while a step whose label is seen is a step of the
abstract system.  The steps may rely on an invariant and on what is known of the labels. -/
theorem Run.refines {T L' : Type*} {N : Lts T L'} {abs : S → T} {seen : L → Option L'}
    {I : List L → S → Prop} {D : List L → L → Prop} {s t : S} {labels : List L}
    (h : M.Run s labels t)
    (hlabels : ∀ past label rest, labels = past ++ label :: rest → D past label)
    (hsilent : ∀ {past s t}, M.silent s t → I past s → I past t ∧ abs t = abs s)
    (hstep : ∀ {past s t label}, M.step s label t → D past label → I past s →
      I (past ++ [label]) t ∧ (seen label = none → abs t = abs s) ∧
        ∀ label', seen label = some label' → N.step (abs s) label' (abs t))
    (hs : I [] s) : N.Run (abs s) (labels.filterMap seen) (abs t) := by
  refine (h.history_of_labels (P := fun past v => I past v ∧
    N.Run (abs s) (past.filterMap seen) (abs v)) hlabels ?_ ?_ ⟨hs, Run.nil _⟩).2
  · rintro past u v hsilentStep ⟨hinvariant, hrun⟩
    obtain ⟨hnext, hsame⟩ := hsilent hsilentStep hinvariant
    exact ⟨hnext, hsame ▸ hrun⟩
  · rintro past u v label hlabelStep hlabel ⟨hinvariant, hrun⟩
    obtain ⟨hnext, hunseen, hseen⟩ := hstep hlabelStep hlabel hinvariant
    refine ⟨hnext, ?_⟩
    rw [List.filterMap_append]
    cases hlabel' : seen label with
    | none =>
        rw [List.filterMap_cons_none hlabel', List.filterMap_nil, List.append_nil, hunseen hlabel']
        exact hrun
    | some label' =>
        rw [List.filterMap_cons_some hlabel', List.filterMap_nil]
        exact hrun.append (Run.step (hseen label' hlabel') (Run.nil _))

/-- **What an invariant says about the labels of a run.** -/
theorem Run.forall_mem_labels {I : S → Prop} {Q : L → Prop} {s t : S} {labels : List L}
    (h : M.Run s labels t)
    (hsilent : ∀ {s t}, M.silent s t → I s → I t)
    (hstep : ∀ {s t label}, label ∈ labels → M.step s label t → I s → I t ∧ Q label)
    (hs : I s) : ∀ label ∈ labels, Q label := by
  induction h with
  | nil s => simp
  | silent hst _ ih => exact ih hstep (hsilent hst hs)
  | @step s t u label labels hst _ ih =>
      obtain ⟨ht, hq⟩ := hstep List.mem_cons_self hst hs
      refine List.forall_mem_cons.2 ⟨hq, ?_⟩
      exact ih (fun hmem => hstep (List.mem_cons_of_mem _ hmem)) ht

/-- A system with fewer steps has fewer runs. -/
theorem Run.mono {N : Lts S L} {s t : S} {labels : List L} (h : M.Run s labels t)
    (hsilent : ∀ {s t}, M.silent s t → N.silent s t)
    (hstep : ∀ {s t label}, M.step s label t → N.step s label t) : N.Run s labels t := by
  induction h with
  | nil s => exact Run.nil s
  | silent hst _ ih => exact Run.silent (hsilent hst) ih
  | step hst _ ih => exact Run.step (hstep hst) ih

/-- The system while some condition holds. -/
def within (M : Lts S L) (P : S → Prop) : Lts S L where
  silent s t := M.silent s t ∧ P s ∧ P t
  step s label t := M.step s label t ∧ P s ∧ P t

/-- A run while some condition holds is a run. -/
theorem Run.of_within {P : S → Prop} {s t : S} {labels : List L} (h : (M.within P).Run s labels t) :
    M.Run s labels t := h.mono (fun hsilent => hsilent.1) fun hstep => hstep.1

/-- What a condition that holds says about the labels of a run. -/
theorem Run.forall_mem_within {P : S → Prop} {Q : L → Prop} {s t : S} {labels : List L}
    (h : (M.within P).Run s labels t) (hstep : ∀ {s t label}, M.step s label t → P s → Q label) :
    ∀ label ∈ labels, Q label :=
  h.forall_mem_labels (I := fun _ => True) (fun _ _ => trivial)
    (fun _ hstepped _ => ⟨trivial, hstep hstepped.1 hstepped.2.1⟩) trivial

end Lts
