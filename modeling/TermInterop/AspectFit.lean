/-
Fitting a rectangle into a rectangle.

A rectangle is scaled by one factor, so that it keeps its aspect ratio, and never enlarged.  The
greatest admissible factor is one where the rectangle fits as it is, and otherwise the smaller of
the two quotients: the side that belongs to it then touches its bound.  Programs compute with whole
numbers of bounded size; `Arithmetic` is such an arithmetic, exact as long as a result is in range,
and `fitSides` is the computation in it.

Main definitions:

* `AspectFit.scale` — the greatest factor;
* `AspectFit.Arithmetic` — sums, products and differences of bounded numbers;
* `AspectFit.fitSides` — the sides of the fitted rectangle;
* `AspectFit.coveringCells` — how many cells of a grid cover a length.

Main results:

* `AspectFit.isGreatest_scale` — what the factor is;
* `AspectFit.fitSides_eq` — the computation is exact in a range;
* `AspectFit.fittedSides_eq_floor` — **the computed sides are the scaled sides**, rounded down;
* `AspectFit.isLeast_coveringCells` — the cells are the fewest.
-/

import Mathlib

set_option relaxedAutoImplicit false
set_option autoImplicit false

namespace AspectFit

/-! ### The greatest factor -/

section Scale

variable {K : Type*} [Field K] [LinearOrder K] [IsStrictOrderedRing K]

/-- The greatest factor that is at most one and takes the sides `w` and `h` below `W` and `H`. -/
def scale (w h W H : K) : K := min 1 (min (W / w) (H / h))

variable {w h W H : K}

/-- **What the factor is.** -/
theorem isGreatest_scale (hw : 0 < w) (hh : 0 < h) :
    IsGreatest {s | s ≤ 1 ∧ s * w ≤ W ∧ s * h ≤ H} (scale w h W H) := by
  have hmem : ∀ s, s ≤ scale w h W H ↔ s ≤ 1 ∧ s * w ≤ W ∧ s * h ≤ H := by
    intro s
    rw [scale, le_min_iff, le_min_iff, le_div_iff₀ hw, le_div_iff₀ hh]
  exact ⟨(hmem _).1 le_rfl, fun s hs => (hmem s).2 hs⟩

/-- Where the rectangle is the wider one, its width decides. -/
theorem scale_of_wide (hw : 0 < w) (hh : 0 < h) (hwide : h * W ≤ w * H) :
    scale w h W H = min w W / w := by
  have hle : W / w ≤ H / h := by
    rw [div_le_div_iff₀ hw hh]
    linarith
  rw [scale, min_eq_left hle, ← div_self hw.ne', min_div_div_right hw.le]

/-- Where it is the taller one, its height decides. -/
theorem scale_of_tall (hw : 0 < w) (hh : 0 < h) (htall : w * H ≤ h * W) :
    scale w h W H = min h H / h := by
  have hle : H / h ≤ W / w := by
    rw [div_le_div_iff₀ hh hw]
    linarith
  rw [scale, min_eq_right hle, ← div_self hh.ne', min_div_div_right hh.le]

end Scale

/-! ### Bounded arithmetic -/

/-- The arithmetic of whole numbers up to a greatest one.  What happens beyond it is a matter of the
arithmetic; up to it, results are exact. -/
structure Arithmetic (greatest : ℕ) (m : Type → Type) [Monad m] where
  mul : ℕ → ℕ → m ℕ
  add : ℕ → ℕ → m ℕ
  sub : ℕ → ℕ → m ℕ
  mul_exact : ∀ a b, a * b ≤ greatest → mul a b = pure (a * b)
  add_exact : ∀ a b, a + b ≤ greatest → add a b = pure (a + b)
  sub_exact : ∀ a b, b ≤ a → sub a b = pure (a - b)

/-- The arithmetic whose results stop at the ends of the range. -/
def saturating (greatest : ℕ) : Arithmetic greatest Id where
  mul a b := pure (min (a * b) greatest)
  add a b := pure (min (a + b) greatest)
  sub a b := pure (a - b)
  mul_exact _ _ h := congrArg pure (min_eq_left h)
  add_exact _ _ h := congrArg pure (min_eq_left h)
  sub_exact _ _ _ := rfl

/-- The arithmetic without a result where the exact one is out of range. -/
def checked (greatest : ℕ) : Arithmetic greatest Option where
  mul a b := if a * b ≤ greatest then some (a * b) else none
  add a b := if a + b ≤ greatest then some (a + b) else none
  sub a b := if b ≤ a then some (a - b) else none
  mul_exact _ _ h := if_pos h
  add_exact _ _ h := if_pos h
  sub_exact _ _ h := if_pos h

variable {greatest : ℕ} {m : Type → Type} [Monad m]

/-! ### The fitted rectangle -/

/-- The sides of the rectangle `w`, `h` fitted into `W`, `H`. -/
def fitSides (A : Arithmetic greatest m) (w h W H : ℕ) : m (ℕ × ℕ) := do
  if (← A.mul w H) > (← A.mul h W) then
    let width := min w W
    let height := max ((← A.mul h width) / w) 1
    return (width, height)
  else
    let height := min h H
    let width := max ((← A.mul w height) / h) 1
    return (width, height)

/-- How many of `count` cells of a grid of length `size` cover a length, at least one and at most a
limit. -/
def coveringCells (A : Arithmetic greatest m) (length count size limit : ℕ) : m ℕ := do
  let covered ← A.add (← A.mul length count) (← A.sub size 1)
  return max 1 (min (covered / size) limit)

/-- The sides that an exact computation yields. -/
def fittedSides (w h W H : ℕ) : ℕ × ℕ :=
  if h * W < w * H then (min w W, max (h * min w W / w) 1) else (max (w * min h H / h) 1, min h H)

section Sides

variable {A : Arithmetic greatest m} {w h W H : ℕ}

/-- The computation is exact while the products of two sides are in range. -/
theorem fitSides_eq [LawfulMonad m] (h₁ : w * H ≤ greatest) (h₂ : h * W ≤ greatest)
    (h₃ : w * h ≤ greatest) : fitSides A w h W H = pure (fittedSides w h W H) := by
  have hwide : h * min w W ≤ greatest := (Nat.mul_le_mul_left h (Nat.min_le_right w W)).trans h₂
  have htall : w * min h H ≤ greatest := (Nat.mul_le_mul_left w (Nat.min_le_left h H)).trans h₃
  unfold fitSides fittedSides
  rw [A.mul_exact _ _ h₁, A.mul_exact _ _ h₂, pure_bind, pure_bind]
  by_cases hlt : h * W < w * H
  · simp only [if_pos hlt, A.mul_exact _ _ hwide, pure_bind]
  · simp only [if_neg hlt, A.mul_exact _ _ htall, pure_bind]

/-- A whole side scaled by a quotient of whole numbers, rounded down. -/
theorem floor_div_mul (a b c : ℕ) : ⌊(b / c : ℚ) * a⌋₊ = a * b / c := by
  rw [← Nat.floor_div_eq_div (K := ℚ), Nat.cast_mul]
  congr 1
  ring

/-- **The computed sides are the scaled sides**, rounded down to whole numbers, and at least
one. -/
theorem fittedSides_eq_floor (hw : 0 < w) (hh : 0 < h) (hW : 0 < W) (hH : 0 < H) :
    fittedSides w h W H =
      (max ⌊scale (w : ℚ) h W H * w⌋₊ 1, max ⌊scale (w : ℚ) h W H * h⌋₊ 1) := by
  have hw' : (0 : ℚ) < w := by exact_mod_cast hw
  have hh' : (0 : ℚ) < h := by exact_mod_cast hh
  unfold fittedSides
  by_cases hlt : h * W < w * H
  · have hle : (h : ℚ) * W ≤ w * H := by exact_mod_cast hlt.le
    have hpos : 1 ≤ min w W := le_min hw hW
    rw [if_pos hlt, scale_of_wide hw' hh' hle, ← Nat.cast_min, floor_div_mul, floor_div_mul,
      Nat.mul_div_cancel_left _ hw, max_eq_left hpos]
  · have hle : (w : ℚ) * H ≤ h * W := by exact_mod_cast not_lt.1 hlt
    have hpos : 1 ≤ min h H := le_min hh hH
    rw [if_neg hlt, scale_of_tall hw' hh' hle, ← Nat.cast_min, floor_div_mul, floor_div_mul,
      Nat.mul_div_cancel_left _ hh, max_eq_left hpos]

/-- A side scaled by an admissible factor is not enlarged, and within its bound. -/
theorem scaled_le {s : ℚ} {side bound : ℕ} (hside : 0 < side) (hbound : 0 < bound) (hs : s ≤ 1)
    (hfit : s * side ≤ bound) : max ⌊s * side⌋₊ 1 ≤ min side bound := by
  have hle : s * side ≤ side := mul_le_of_le_one_left (Nat.cast_nonneg side) hs
  refine max_le (le_min ?_ ?_) (le_min hside hbound)
  · exact Nat.floor_le_of_le hle
  · exact Nat.floor_le_of_le hfit

/-- **The fitted rectangle is within the bounds**, and not larger than the given one. -/
theorem fittedSides_le (hw : 0 < w) (hh : 0 < h) (hW : 0 < W) (hH : 0 < H) :
    (1 ≤ (fittedSides w h W H).1 ∧ (fittedSides w h W H).1 ≤ min w W) ∧
      (1 ≤ (fittedSides w h W H).2 ∧ (fittedSides w h W H).2 ≤ min h H) := by
  obtain ⟨⟨hone, hwidth, hheight⟩, -⟩ :=
    isGreatest_scale (w := (w : ℚ)) (h := h) (W := W) (H := H)
      (by exact_mod_cast hw) (by exact_mod_cast hh)
  rw [fittedSides_eq_floor hw hh hW hH]
  exact ⟨⟨le_max_right _ _, scaled_le hw hW hone hwidth⟩,
    le_max_right _ _, scaled_le hh hH hone hheight⟩

/-- A rectangle that fits stays as it is. -/
theorem fittedSides_of_fits (hw : 0 < w) (hh : 0 < h) (hwW : w ≤ W) (hhH : h ≤ H) :
    fittedSides w h W H = (w, h) := by
  unfold fittedSides
  rw [min_eq_left hwW, min_eq_left hhH, Nat.mul_div_cancel _ hw, Nat.mul_div_cancel _ hh,
    max_eq_left hh, max_eq_left hw, ite_self]

/-- A rectangle that does not fit and is the wider one touches the bound of its width. -/
theorem fittedSides_of_wide (hnot : ¬ (w ≤ W ∧ h ≤ H)) (hwide : h * W < w * H) :
    fittedSides w h W H = (W, max (h * W / w) 1) := by
  have hW : W ≤ w := by
    by_contra hlt
    have hH : H < h := by
      by_contra hle
      exact hnot ⟨by omega, not_lt.1 hle⟩
    have hle : w * H ≤ h * W := by
      rw [Nat.mul_comm h W]
      exact Nat.mul_le_mul (by omega) hH.le
    omega
  rw [fittedSides, if_pos hwide, min_eq_right hW]

/-- A rectangle that does not fit and is not the wider one touches the bound of its height. -/
theorem fittedSides_of_tall (hnot : ¬ (w ≤ W ∧ h ≤ H)) (htall : w * H ≤ h * W) :
    fittedSides w h W H = (max (w * H / h) 1, H) := by
  have hH : H ≤ h := by
    by_contra hlt
    have hWw : W < w := by
      by_contra hle
      exact hnot ⟨not_lt.1 hle, by omega⟩
    have hle : h * W < w * H := by
      rw [Nat.mul_comm h W]
      exact Nat.mul_lt_mul_of_lt_of_lt hWw (by omega)
    omega
  rw [fittedSides, if_neg (not_lt.2 htall), min_eq_right hH]

end Sides

/-! ### Cells -/

section Cells

variable {A : Arithmetic greatest m} {length count size limit : ℕ}

/-- The computation is exact while its sum is in range. -/
theorem coveringCells_eq [LawfulMonad m] (hrange : length * count + size ≤ greatest)
    (hsize : 0 < size) : coveringCells A length count size limit =
      pure (max 1 (min (length * count ⌈/⌉ size) limit)) := by
  unfold coveringCells
  rw [A.mul_exact _ _ (by omega), A.sub_exact _ _ hsize, pure_bind, pure_bind,
    A.add_exact _ _ (by omega), pure_bind, Nat.ceilDiv_eq_add_pred_div,
    Nat.add_sub_assoc (by omega)]

/-- **The cells are the fewest that cover the length**, when the limit leaves room for them. -/
theorem isLeast_coveringCells (hlength : 0 < length) (hcount : 0 < count) (hsize : 0 < size)
    (hlimit : length * count ≤ limit * size) :
    IsLeast {n : ℕ | (length : ℚ) ≤ n * (size / count)}
      (max 1 (min (length * count ⌈/⌉ size) limit)) := by
  have hcovers : ∀ n : ℕ, (length : ℚ) ≤ n * (size / count) ↔ length * count ⌈/⌉ size ≤ n := by
    intro n
    have hcount' : (0 : ℚ) < count := by exact_mod_cast hcount
    rw [← mul_div_assoc, le_div_iff₀ hcount', ceilDiv_le_iff_le_mul hsize, Nat.mul_comm size n]
    exact_mod_cast Iff.rfl
  have hle : length * count ⌈/⌉ size ≤ limit := by
    rw [ceilDiv_le_iff_le_mul hsize]
    linarith
  have hpos : 1 ≤ length * count ⌈/⌉ size := by
    by_contra hlt
    have hzero : length * count ⌈/⌉ size ≤ 0 := by omega
    rw [ceilDiv_le_iff_le_mul hsize] at hzero
    have hprod : 0 < length * count := Nat.mul_pos hlength hcount
    omega
  rw [min_eq_left hle, max_eq_right hpos]
  exact ⟨(hcovers _).2 le_rfl, fun n hn => (hcovers n).1 hn⟩

/-- There is at least one cell, and no more than the limit. -/
theorem coveringCells_bounds (hlimit : 0 < limit) (n : ℕ) :
    1 ≤ max 1 (min n limit) ∧ max 1 (min n limit) ≤ limit := by
  omega

end Cells

end AspectFit
