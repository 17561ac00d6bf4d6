/-
Slices of a buffer, addressed by offsets.

The parsers of wire protocols read a buffer through `get(a..b)`, `windows` and `position`.  Each of
these only looks at what follows an offset, so each is characterized here by the list `drop a` of
what follows: a slice is a prefix of it, and a pattern is found where it first becomes one.

Main definitions:

* `Slices.slice?`, `Slices.sliceFrom?` — checked slices;
* `Slices.windows`, `Slices.position` — the first occurrence of a pattern.

Main results:

* `Slices.slice?_eq_some_iff` — a slice is a prefix of what follows;
* `Slices.position_eq_some_iff` — the first occurrence.
-/

import Mathlib

set_option relaxedAutoImplicit false
set_option autoImplicit false

namespace Slices

variable {α : Type*}

/-! ### Checked slices -/

/-- `xs.get(a..b)`. -/
def slice? (xs : List α) (a b : ℕ) : Option (List α) :=
  if a ≤ b ∧ b ≤ xs.length then some ((xs.drop a).take (b - a)) else none

/-- `xs.get(a..)`. -/
def sliceFrom? (xs : List α) (a : ℕ) : Option (List α) :=
  if a ≤ xs.length then some (xs.drop a) else none

/-- **A slice is a prefix of what follows its start.** -/
theorem slice?_eq_some_iff {xs m : List α} {a b : ℕ} :
    slice? xs a b = some m ↔ a ≤ xs.length ∧ b = a + m.length ∧ m <+: xs.drop a := by
  rw [slice?]
  constructor
  · intro h
    split at h
    · rename_i hab
      obtain rfl := Option.some_inj.1 h
      refine ⟨by omega, ?_, List.take_prefix _ _⟩
      rw [List.length_take, List.length_drop]
      omega
    · cases h
  · rintro ⟨ha, rfl, hpre⟩
    have hlen := hpre.length_le
    rw [List.length_drop] at hlen
    rw [if_pos ⟨by omega, by omega⟩, Nat.add_sub_cancel_left, List.prefix_iff_eq_take.1 hpre]
    simp

theorem sliceFrom?_eq_some_iff {xs m : List α} {a : ℕ} :
    sliceFrom? xs a = some m ↔ a ≤ xs.length ∧ m = xs.drop a := by
  rw [sliceFrom?]
  split <;> simp_all [eq_comm]

/-- The slice of a known length at an offset. -/
theorem slice?_of_drop {xs m rest : List α} {a b : ℕ} (h : xs.drop a = m ++ rest)
    (ha : a ≤ xs.length) (hb : b = a + m.length) : slice? xs a b = some m :=
  slice?_eq_some_iff.2 ⟨ha, hb, by rw [h]; exact List.prefix_append m rest⟩

/-- What follows a later offset. -/
theorem drop_add_of_append {xs m rest : List α} {a : ℕ} (h : xs.drop a = m ++ rest) :
    xs.drop (a + m.length) = rest := by
  rw [← List.drop_drop, h, List.drop_left]

/-- An offset that something follows lies in the list. -/
theorem lt_length_of_drop_ne_nil {xs : List α} {a : ℕ} (h : xs.drop a ≠ []) : a < xs.length := by
  by_contra hge
  exact h (List.drop_eq_nil_of_le (Nat.not_lt.1 hge))

/-- The first occurrence of an element splits a list. -/
theorem findIdx?_eq_some_iff_append [DecidableEq α] {x : α} {xs : List α} {k : ℕ} :
    xs.findIdx? (· = x) = some k ↔
      ∃ before rest, xs = before ++ x :: rest ∧ x ∉ before ∧ k = before.length := by
  induction xs generalizing k with
  | nil => simp
  | cons y xs ih =>
      rw [List.findIdx?_cons]
      by_cases hyx : y = x
      · subst hyx
        rw [if_pos (by simp), Option.some_inj]
        constructor
        · rintro rfl
          exact ⟨[], xs, rfl, by simp, rfl⟩
        · rintro ⟨before, rest, heq, hnot, rfl⟩
          cases before with
          | nil => rfl
          | cons z before =>
              obtain ⟨rfl, -⟩ := List.cons.inj heq
              exact absurd List.mem_cons_self hnot
      · rw [if_neg (by simpa using hyx), Option.map_eq_some_iff]
        constructor
        · rintro ⟨k, hk, rfl⟩
          obtain ⟨before, rest, rfl, hnot, rfl⟩ := ih.1 hk
          refine ⟨y :: before, rest, rfl, ?_, rfl⟩
          rw [List.mem_cons, not_or]
          exact ⟨Ne.symm hyx, hnot⟩
        · rintro ⟨before, rest, heq, hnot, rfl⟩
          cases before with
          | nil => exact absurd (List.cons.inj heq).1 hyx
          | cons z before =>
              obtain ⟨rfl, rfl⟩ := List.cons.inj heq
              exact ⟨before.length,
                ih.2 ⟨before, rest, rfl, fun h => hnot (List.mem_cons_of_mem _ h), rfl⟩, rfl⟩

/-! ### The first occurrence of a pattern -/

/-- `xs.windows(n)`, for a positive `n`. -/
def windows (n : ℕ) : List α → List (List α)
  | [] => []
  | x :: xs => if n ≤ xs.length + 1 then (x :: xs).take n :: windows n xs else []

/-- `xs.windows(pattern.len()).position(|window| window == pattern)`. -/
def position [DecidableEq α] (pattern xs : List α) : Option ℕ :=
  (windows pattern.length xs).findIdx? (· = pattern)

section Position

variable [DecidableEq α] {pattern : List α}

theorem position_nil : position pattern ([] : List α) = none := rfl

/-- The pattern is at the front, or it is looked for behind the first element. -/
theorem position_cons (x : α) (xs : List α) :
    position pattern (x :: xs) =
      if pattern <+: x :: xs then some 0 else (position pattern xs).map (· + 1) := by
  rw [position, windows]
  split
  · rename_i hlen
    have hiff : (x :: xs).take pattern.length = pattern ↔ pattern <+: x :: xs := by
      rw [List.prefix_iff_eq_take, eq_comm]
    rw [List.findIdx?_cons]
    simp only [decide_eq_true_eq, hiff]
    split <;> rfl
  · rename_i hlen
    have hnot : ¬ pattern <+: x :: xs := fun hpre => hlen (by simpa using hpre.length_le)
    have hnone : windows pattern.length xs = [] := by
      cases xs with
      | nil => rfl
      | cons y ys => rw [windows, if_neg (by simp only [List.length_cons] at hlen ⊢; omega)]
    rw [if_neg hnot, position, hnone]
    rfl

/-- **The first occurrence**: the pattern is a prefix of the rest there, and of no rest before. -/
theorem position_eq_some_iff (hne : pattern ≠ []) {xs : List α} {k : ℕ} :
    position pattern xs = some k ↔
      pattern <+: xs.drop k ∧ ∀ j < k, ¬ pattern <+: xs.drop j := by
  induction xs generalizing k with
  | nil => simp [position_nil, hne]
  | cons x xs ih =>
      rw [position_cons]
      by_cases hpre : pattern <+: x :: xs
      · rw [if_pos hpre]
        constructor
        · intro h
          obtain rfl : 0 = k := by simpa using h
          exact ⟨hpre, by simp⟩
        · rintro ⟨-, h⟩
          rcases Nat.eq_zero_or_pos k with rfl | hk
          · rfl
          · exact absurd hpre (h 0 hk)
      · rw [if_neg hpre, Option.map_eq_some_iff]
        cases k with
        | zero => simp [hpre]
        | succ k =>
            simp only [Nat.add_right_cancel_iff, exists_eq_right, ih, List.drop_succ_cons]
            refine and_congr_right fun _ => ⟨fun h j hj => ?_, fun h j hj => ?_⟩
            · cases j with
              | zero => exact hpre
              | succ j => exact h j (by omega)
            · exact h (j + 1) (by omega)

end Position

end Slices
