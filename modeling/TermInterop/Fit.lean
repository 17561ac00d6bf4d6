/-
Where an image goes on the terminal.

A viewport has columns and rows, and sometimes a size in pixels; where it has none, a cell is taken
to be 8 by 16 pixels.  `fitRaster` fits an image into the rows of the viewport that are not
reserved: it computes the pixels of the image and the cells that cover them.  The computation is
carried out in saturating 64-bit arithmetic, and `fitRasterWith` is the same computation in any
arithmetic that is exact in this range.

Main definitions:

* `TermInterop.Viewport`, `TermInterop.RasterPlacement` — what is given and what is computed;
* `TermInterop.fitRaster` — the computation;
* `TermInterop.placementLeft` — the column at which the image starts.

Main results:

* `TermInterop.fitRasterWith_eq` — the computation in any arithmetic;
* `TermInterop.fit_raster_exact` — **the placement is the fitted one, and stays on the screen**.
-/

import TermInterop.AspectFit
import TermInterop.Preview

set_option relaxedAutoImplicit false
set_option autoImplicit false

namespace TermInterop

open AspectFit (Arithmetic)

/-- Terminal geometry used to place an image. -/
structure Viewport where
  columns : UInt16
  rows : UInt16
  pixelWidth : Option UInt32
  pixelHeight : Option UInt32
  deriving DecidableEq

/-- Cell placement and raster dimensions for one image. -/
structure RasterPlacement where
  columns : UInt16
  rows : UInt16
  pixelWidth : UInt32
  pixelHeight : UInt32
  deriving DecidableEq

/-! ### The computation -/

/-- The greatest 64-bit number. -/
def U64_MAX : ℕ := 2 ^ 64 - 1

section Computation

variable {m : Type → Type} [Monad m] (A : Arithmetic U64_MAX m)

/-- An observed number of pixels; zero counts as none. -/
def observedPixels (value : Option UInt32) : Option ℕ :=
  (value.filter fun value => value > 0).map UInt32.toNat

/-- The pixels of a viewport in one direction: the observed ones, or those of its cells. -/
def fullPixels (observed : Option UInt32) (cells : UInt16) (cellPixels : ℕ) : m ℕ :=
  match observedPixels observed with
  | some pixels => pure pixels
  | none => A.mul cells.toNat cellPixels

/-- The pixels of the rows that are not reserved. -/
def availablePixelHeight (fullPixelHeight availableRows : ℕ) (rows : UInt16) : m ℕ := do
  return max ((← A.mul fullPixelHeight availableRows) / rows.toNat) 1

/-- `u16::saturating_sub`. -/
def saturatingSub (a b : UInt16) : UInt16 := if b ≤ a then a - b else 0

/-- `u16::try_from(value).unwrap_or(fallback)`. -/
def u16OrElse (value : ℕ) (fallback : UInt16) : UInt16 :=
  if value < 2 ^ 16 then UInt16.ofNat value else fallback

/-- `u32::try_from(value).unwrap_or(u32::MAX)`. -/
def u32OrMax (value : ℕ) : UInt32 := UInt32.ofNat (min value (2 ^ 32 - 1))

/-- Fit an image into a viewport, in a given arithmetic. -/
def fitRasterWith (imageWidth imageHeight : UInt32) (viewport : Viewport) (reservedRows : UInt16) :
    m (Except ArtifactError RasterPlacement) := do
  let availableRows := saturatingSub viewport.rows reservedRows
  if viewport.columns = 0 ∨ availableRows = 0 ∨ imageWidth = 0 ∨ imageHeight = 0 then
    return .error .emptyViewport
  let availablePixelWidth ← fullPixels A viewport.pixelWidth viewport.columns 8
  let fullPixelHeight ← fullPixels A viewport.pixelHeight viewport.rows 16
  let availablePixelHeight ←
    availablePixelHeight A fullPixelHeight availableRows.toNat viewport.rows
  let (pixelWidth, pixelHeight) ← AspectFit.fitSides A imageWidth.toNat imageHeight.toNat
    availablePixelWidth availablePixelHeight
  let columns ← AspectFit.coveringCells A pixelWidth viewport.columns.toNat availablePixelWidth
    viewport.columns.toNat
  let rows ← AspectFit.coveringCells A pixelHeight viewport.rows.toNat fullPixelHeight
    availableRows.toNat
  return .ok
    { columns := u16OrElse columns viewport.columns
      rows := u16OrElse rows availableRows
      pixelWidth := u32OrMax pixelWidth
      pixelHeight := u32OrMax pixelHeight }

end Computation

/-- **Fit an image into a viewport while preserving its pixel aspect ratio.** -/
def fitRaster (imageWidth imageHeight : UInt32) (viewport : Viewport) (reservedRows : UInt16) :
    Except ArtifactError RasterPlacement :=
  fitRasterWith (m := Id) (AspectFit.saturating U64_MAX) imageWidth imageHeight viewport
    reservedRows

/-- The rows that a preview keeps for its status line. -/
def rasterReservedRows : UInt16 := 2

/-- The column at which a preview starts a placement, to centre it. -/
def placementLeft (viewport : Viewport) (placement : RasterPlacement) : ℕ :=
  min ((saturatingSub viewport.columns placement.columns).toNat / 2 + 1) (2 ^ 16 - 1)

/-! ### The exact numbers -/

namespace Viewport

variable (viewport : Viewport) (reservedRows : UInt16)

/-- The width in pixels: the observed one, or 8 for each column. -/
def exactWidth : ℕ := (observedPixels viewport.pixelWidth).getD (8 * viewport.columns.toNat)

/-- The height in pixels: the observed one, or 16 for each row. -/
def exactHeight : ℕ := (observedPixels viewport.pixelHeight).getD (16 * viewport.rows.toNat)

/-- The rows that are not reserved. -/
def rowsLeft : ℕ := viewport.rows.toNat - reservedRows.toNat

/-- The height of these rows in pixels, at least one. -/
def heightLeft : ℕ :=
  max 1 (viewport.exactHeight * viewport.rowsLeft reservedRows / viewport.rows.toNat)

end Viewport

section Exact

variable {m : Type → Type} [Monad m] {A : Arithmetic U64_MAX m}

theorem observedPixels_bounds {observed : Option UInt32} {pixels : ℕ}
    (h : observedPixels observed = some pixels) : 0 < pixels ∧ pixels < 2 ^ 32 := by
  obtain ⟨value, hvalue, rfl⟩ := Option.map_eq_some_iff.1 h
  rw [Option.filter_eq_some_iff] at hvalue
  have hpos : 0 < value.toNat := by simpa [UInt32.lt_iff_toNat_lt] using hvalue.2
  exact ⟨hpos, value.toNat_lt⟩

theorem getD_observedPixels_bounds {observed : Option UInt32} {cells : UInt16} {cellPixels : ℕ}
    (hcells : 0 < cells.toNat) (hpixels : 0 < cellPixels) (hle : cellPixels ≤ 2 ^ 16) :
    0 < (observedPixels observed).getD (cellPixels * cells.toNat) ∧
      (observedPixels observed).getD (cellPixels * cells.toNat) < 2 ^ 32 := by
  cases hobserved : observedPixels observed with
  | some pixels => exact observedPixels_bounds hobserved
  | none =>
      have hlt := cells.toNat_lt
      exact ⟨Nat.mul_pos hpixels hcells,
        (Nat.mul_le_mul_right _ hle).trans_lt (Nat.mul_lt_mul_of_pos_left hlt (by decide))⟩

theorem fullPixels_eq {observed : Option UInt32} {cells : UInt16} {cellPixels : ℕ}
    (hle : cellPixels ≤ 2 ^ 16) : fullPixels A observed cells cellPixels =
      pure ((observedPixels observed).getD (cellPixels * cells.toNat)) := by
  have hlt := cells.toNat_lt
  have hrange : cells.toNat * cellPixels ≤ U64_MAX :=
    (Nat.mul_le_mul hlt.le hle).trans (by decide)
  unfold fullPixels
  cases observedPixels observed with
  | some pixels => rfl
  | none => rw [A.mul_exact _ _ hrange, Nat.mul_comm]; rfl

theorem saturatingSub_toNat (a b : UInt16) : (saturatingSub a b).toNat = a.toNat - b.toNat := by
  unfold saturatingSub
  split
  · rename_i hle
    exact UInt16.toNat_sub_of_le _ _ hle
  · rename_i hnot
    rw [UInt16.le_iff_toNat_le] at hnot
    rw [UInt16.toNat_zero]
    omega

theorem u16OrElse_eq {value : ℕ} {fallback : UInt16} (h : value < 2 ^ 16) :
    u16OrElse value fallback = UInt16.ofNat value := if_pos h

theorem u32OrMax_eq {value : ℕ} (h : value < 2 ^ 32) : u32OrMax value = UInt32.ofNat value :=
  congrArg UInt32.ofNat (min_eq_left (Nat.le_pred_of_lt h))

end Exact

/-! ### The computation is exact -/

theorem mul_le_U64_MAX {a b : ℕ} (ha : a < 2 ^ 32) (hb : b < 2 ^ 32) : a * b ≤ U64_MAX :=
  (Nat.mul_le_mul (Nat.le_pred_of_lt ha) (Nat.le_pred_of_lt hb)).trans (by decide)

theorem mul_add_le_U64_MAX {a b c : ℕ} (ha : a < 2 ^ 32) (hb : b < 2 ^ 16) (hc : c < 2 ^ 32) :
    a * b + c ≤ U64_MAX :=
  (Nat.add_le_add (Nat.mul_le_mul (Nat.le_pred_of_lt ha) (Nat.le_pred_of_lt hb))
    (Nat.le_pred_of_lt hc)).trans (by decide)

/-- What `fitRaster` has to work with: an image that is not empty, and a viewport with a column and
with a row that is not reserved. -/
structure Drawable (imageWidth imageHeight : UInt32) (viewport : Viewport) (reservedRows : UInt16) :
    Prop where
  width : 0 < imageWidth
  height : 0 < imageHeight
  columns : 0 < viewport.columns
  rows : reservedRows < viewport.rows

namespace Drawable

variable {imageWidth imageHeight : UInt32} {viewport : Viewport} {reservedRows : UInt16}
  (drawable : Drawable imageWidth imageHeight viewport reservedRows)

include drawable

theorem width_pos : 0 < imageWidth.toNat := UInt32.lt_iff_toNat_lt.1 drawable.width

theorem height_pos : 0 < imageHeight.toNat := UInt32.lt_iff_toNat_lt.1 drawable.height

theorem columns_pos : 0 < viewport.columns.toNat := UInt16.lt_iff_toNat_lt.1 drawable.columns

theorem rowsLeft_pos : 0 < viewport.rowsLeft reservedRows := by
  have hlt := UInt16.lt_iff_toNat_lt.1 drawable.rows
  unfold Viewport.rowsLeft
  omega

theorem rows_pos : 0 < viewport.rows.toNat :=
  lt_of_lt_of_le drawable.rowsLeft_pos (Nat.sub_le _ _)

theorem exactWidth_bounds : 0 < viewport.exactWidth ∧ viewport.exactWidth < 2 ^ 32 :=
  getD_observedPixels_bounds drawable.columns_pos (by decide) (by decide)

theorem exactHeight_bounds : 0 < viewport.exactHeight ∧ viewport.exactHeight < 2 ^ 32 :=
  getD_observedPixels_bounds drawable.rows_pos (by decide) (by decide)

/-- The rows that are left are not higher than all rows. -/
theorem heightLeft_bounds : 0 < viewport.heightLeft reservedRows ∧
    viewport.heightLeft reservedRows ≤ viewport.exactHeight := by
  refine ⟨Nat.lt_of_lt_of_le one_pos (Nat.le_max_left _ _), max_le drawable.exactHeight_bounds.1 ?_⟩
  refine Nat.div_le_of_le_mul ?_
  rw [Nat.mul_comm viewport.rows.toNat]
  exact Nat.mul_le_mul_left _ (Nat.sub_le _ _)

end Drawable

/-- The sides of the fitted image, in pixels. -/
def exactSides (imageWidth imageHeight : UInt32) (viewport : Viewport) (reservedRows : UInt16) :
    ℕ × ℕ :=
  AspectFit.fittedSides imageWidth.toNat imageHeight.toNat viewport.exactWidth
    (viewport.heightLeft reservedRows)

/-- The columns that the fitted image covers. -/
def exactColumns (imageWidth imageHeight : UInt32) (viewport : Viewport) (reservedRows : UInt16) :
    ℕ :=
  max 1 (min ((exactSides imageWidth imageHeight viewport reservedRows).1 *
    viewport.columns.toNat ⌈/⌉ viewport.exactWidth) viewport.columns.toNat)

/-- The rows that the fitted image covers. -/
def exactRows (imageWidth imageHeight : UInt32) (viewport : Viewport) (reservedRows : UInt16) : ℕ :=
  max 1 (min ((exactSides imageWidth imageHeight viewport reservedRows).2 *
    viewport.rows.toNat ⌈/⌉ viewport.exactHeight) (viewport.rowsLeft reservedRows))

section Run

variable {m : Type → Type} [Monad m] [LawfulMonad m] {A : Arithmetic U64_MAX m}
variable {imageWidth imageHeight : UInt32} {viewport : Viewport} {reservedRows : UInt16}

/-- The sides of the fitted image are within the viewport and not larger than the image. -/
theorem exactSides_le (drawable : Drawable imageWidth imageHeight viewport reservedRows) :
    let sides := exactSides imageWidth imageHeight viewport reservedRows
    (1 ≤ sides.1 ∧ sides.1 ≤ min imageWidth.toNat viewport.exactWidth) ∧
      (1 ≤ sides.2 ∧ sides.2 ≤ min imageHeight.toNat (viewport.heightLeft reservedRows)) :=
  AspectFit.fittedSides_le drawable.width_pos drawable.height_pos drawable.exactWidth_bounds.1
    drawable.heightLeft_bounds.1

/-- **The computation in any arithmetic that is exact up to the greatest 64-bit number.** -/
theorem fitRasterWith_eq (drawable : Drawable imageWidth imageHeight viewport reservedRows) :
    fitRasterWith A imageWidth imageHeight viewport reservedRows = pure (.ok
      { columns := UInt16.ofNat (exactColumns imageWidth imageHeight viewport reservedRows)
        rows := UInt16.ofNat (exactRows imageWidth imageHeight viewport reservedRows)
        pixelWidth := UInt32.ofNat (exactSides imageWidth imageHeight viewport reservedRows).1
        pixelHeight :=
          UInt32.ofNat (exactSides imageWidth imageHeight viewport reservedRows).2 }) := by
  have hsides := exactSides_le drawable
  have hw := imageWidth.toNat_lt
  have hh := imageHeight.toNat_lt
  have hcolumns := viewport.columns.toNat_lt
  have hrows := viewport.rows.toNat_lt
  obtain ⟨hW, hW'⟩ := drawable.exactWidth_bounds
  obtain ⟨hF, hF'⟩ := drawable.exactHeight_bounds
  obtain ⟨hH, hH'⟩ := drawable.heightLeft_bounds
  have hleft := drawable.rowsLeft_pos
  have hle : viewport.rowsLeft reservedRows ≤ viewport.rows.toNat := Nat.sub_le _ _
  have havailable : (saturatingSub viewport.rows reservedRows).toNat =
      viewport.rowsLeft reservedRows := saturatingSub_toNat _ _
  have hguard : ¬ (viewport.columns = 0 ∨ saturatingSub viewport.rows reservedRows = 0 ∨
      imageWidth = 0 ∨ imageHeight = 0) := by
    rintro (h | h | h | h)
    · exact absurd (congrArg UInt16.toNat h) drawable.columns_pos.ne'
    · exact absurd (havailable.symm.trans (congrArg UInt16.toNat h)) hleft.ne'
    · exact absurd (congrArg UInt32.toNat h) drawable.width_pos.ne'
    · exact absurd (congrArg UInt32.toNat h) drawable.height_pos.ne'
  have hfullWidth : fullPixels A viewport.pixelWidth viewport.columns 8 =
      pure viewport.exactWidth := fullPixels_eq (by decide)
  have hfullHeight : fullPixels A viewport.pixelHeight viewport.rows 16 =
      pure viewport.exactHeight := fullPixels_eq (by decide)
  have hheight : availablePixelHeight A viewport.exactHeight (viewport.rowsLeft reservedRows)
      viewport.rows = pure (viewport.heightLeft reservedRows) := by
    unfold availablePixelHeight
    rw [A.mul_exact _ _ (mul_le_U64_MAX hF' (by omega)), pure_bind, max_comm]
    rfl
  have hfit : AspectFit.fitSides A imageWidth.toNat imageHeight.toNat viewport.exactWidth
      (viewport.heightLeft reservedRows) =
        pure (exactSides imageWidth imageHeight viewport reservedRows) :=
    AspectFit.fitSides_eq (mul_le_U64_MAX hw (by omega)) (mul_le_U64_MAX hh hW')
      (mul_le_U64_MAX hw hh)
  obtain ⟨⟨-, hwidth⟩, -, hlength⟩ := hsides
  rw [le_min_iff] at hwidth hlength
  have hpositive : 0 < viewport.columns.toNat := drawable.columns_pos
  have hcells :=
    AspectFit.coveringCells_bounds hpositive
      ((exactSides imageWidth imageHeight viewport reservedRows).1 *
      viewport.columns.toNat ⌈/⌉ viewport.exactWidth)
  have hlines := AspectFit.coveringCells_bounds hleft
    ((exactSides imageWidth imageHeight viewport reservedRows).2 *
      viewport.rows.toNat ⌈/⌉ viewport.exactHeight)
  unfold fitRasterWith
  simp only [if_neg hguard, pure_bind, havailable, hfullWidth, hfullHeight, hheight, hfit]
  rw [AspectFit.coveringCells_eq (mul_add_le_U64_MAX (by omega) hcolumns hW') hW, pure_bind,
    AspectFit.coveringCells_eq (mul_add_le_U64_MAX (by omega) hrows hF') hF, pure_bind]
  rw [u16OrElse_eq (hcells.2.trans_lt hcolumns), u16OrElse_eq (hlines.2.trans_lt (by omega)),
    u32OrMax_eq (by omega), u32OrMax_eq (by omega)]
  rfl

end Run

/-! ### What a placement is -/

/-- A placement is fitted: its pixels are those of the scaled image, and its cells cover them. -/
structure Fitted (imageWidth imageHeight : UInt32) (viewport : Viewport) (reservedRows : UInt16)
    (placement : RasterPlacement) : Prop where
  width : 1 ≤ placement.pixelWidth.toNat ∧
    placement.pixelWidth.toNat ≤ min imageWidth.toNat viewport.exactWidth
  height : 1 ≤ placement.pixelHeight.toNat ∧
    placement.pixelHeight.toNat ≤ min imageHeight.toNat (viewport.heightLeft reservedRows)
  unscaled : imageWidth.toNat ≤ viewport.exactWidth →
    imageHeight.toNat ≤ viewport.heightLeft reservedRows →
    placement.pixelWidth = imageWidth ∧ placement.pixelHeight = imageHeight
  /-- The width is the limiting bound. -/
  wide : ¬ (imageWidth.toNat ≤ viewport.exactWidth ∧
      imageHeight.toNat ≤ viewport.heightLeft reservedRows) →
    (viewport.exactWidth : ℚ) / imageWidth.toNat <
      (viewport.heightLeft reservedRows : ℚ) / imageHeight.toNat →
    placement.pixelWidth.toNat = viewport.exactWidth ∧ placement.pixelHeight.toNat =
      max ⌊(imageHeight.toNat : ℚ) * viewport.exactWidth / imageWidth.toNat⌋₊ 1
  /-- The height is the limiting bound. -/
  tall : ¬ (imageWidth.toNat ≤ viewport.exactWidth ∧
      imageHeight.toNat ≤ viewport.heightLeft reservedRows) →
    (viewport.heightLeft reservedRows : ℚ) / imageHeight.toNat ≤
      (viewport.exactWidth : ℚ) / imageWidth.toNat →
    placement.pixelHeight.toNat = viewport.heightLeft reservedRows ∧ placement.pixelWidth.toNat =
      max ⌊(imageWidth.toNat : ℚ) * viewport.heightLeft reservedRows / imageHeight.toNat⌋₊ 1
  columns : 1 ≤ placement.columns.toNat ∧ placement.columns ≤ viewport.columns
  rows : 1 ≤ placement.rows.toNat ∧ placement.rows.toNat ≤ viewport.rowsLeft reservedRows
  columnsLeast : IsLeast {n : ℕ | (placement.pixelWidth.toNat : ℚ) ≤
    n * (viewport.exactWidth / viewport.columns.toNat)} placement.columns.toNat
  rowsLeast : viewport.rows.toNat ≤ viewport.exactHeight * viewport.rowsLeft reservedRows →
    IsLeast {n : ℕ | (placement.pixelHeight.toNat : ℚ) ≤
      n * (viewport.exactHeight / viewport.rows.toNat)} placement.rows.toNat

section Placement

variable {imageWidth imageHeight : UInt32} {viewport : Viewport} {reservedRows : UInt16}

theorem exactColumns_bounds (drawable : Drawable imageWidth imageHeight viewport reservedRows) :
    1 ≤ exactColumns imageWidth imageHeight viewport reservedRows ∧
      exactColumns imageWidth imageHeight viewport reservedRows ≤ viewport.columns.toNat :=
  AspectFit.coveringCells_bounds drawable.columns_pos _

theorem exactRows_bounds (drawable : Drawable imageWidth imageHeight viewport reservedRows) :
    1 ≤ exactRows imageWidth imageHeight viewport reservedRows ∧
      exactRows imageWidth imageHeight viewport reservedRows ≤ viewport.rowsLeft reservedRows :=
  AspectFit.coveringCells_bounds drawable.rowsLeft_pos _

/-- The columns are the fewest that cover the width. -/
theorem isLeast_exactColumns (drawable : Drawable imageWidth imageHeight viewport reservedRows) :
    IsLeast {n : ℕ | ((exactSides imageWidth imageHeight viewport reservedRows).1 : ℚ) ≤
      n * (viewport.exactWidth / viewport.columns.toNat)}
      (exactColumns imageWidth imageHeight viewport reservedRows) := by
  obtain ⟨⟨hpos, hle⟩, -⟩ := exactSides_le drawable
  refine AspectFit.isLeast_coveringCells hpos drawable.columns_pos drawable.exactWidth_bounds.1 ?_
  rw [Nat.mul_comm]
  exact Nat.mul_le_mul_left _ (hle.trans (Nat.min_le_right _ _))

/-- The rows are the fewest that cover the height, when a row that is left has a pixel. -/
theorem isLeast_exactRows (drawable : Drawable imageWidth imageHeight viewport reservedRows)
    (hpixel : viewport.rows.toNat ≤ viewport.exactHeight * viewport.rowsLeft reservedRows) :
    IsLeast {n : ℕ | ((exactSides imageWidth imageHeight viewport reservedRows).2 : ℚ) ≤
      n * (viewport.exactHeight / viewport.rows.toNat)}
      (exactRows imageWidth imageHeight viewport reservedRows) := by
  obtain ⟨-, hpos, hle⟩ := exactSides_le drawable
  refine AspectFit.isLeast_coveringCells hpos drawable.rows_pos drawable.exactHeight_bounds.1 ?_
  have hone : 1 ≤ viewport.exactHeight * viewport.rowsLeft reservedRows / viewport.rows.toNat :=
    (Nat.one_le_div_iff drawable.rows_pos).2 hpixel
  have hleft : viewport.heightLeft reservedRows =
      viewport.exactHeight * viewport.rowsLeft reservedRows / viewport.rows.toNat :=
        max_eq_right hone
  calc (exactSides imageWidth imageHeight viewport reservedRows).2 * viewport.rows.toNat
      ≤ viewport.heightLeft reservedRows * viewport.rows.toNat :=
        Nat.mul_le_mul_right _ (hle.trans (Nat.min_le_right _ _))
    _ ≤ viewport.exactHeight * viewport.rowsLeft reservedRows := by
        rw [hleft]
        exact Nat.div_mul_le_self _ _
    _ = viewport.rowsLeft reservedRows * viewport.exactHeight := Nat.mul_comm _ _

/-- One quotient of whole numbers is below another. -/
theorem div_lt_div_iff_cast {a b c d : ℕ} (hb : 0 < b) (hd : 0 < d) :
    (a : ℚ) / b < (c : ℚ) / d ↔ d * a < b * c := by
  rw [div_lt_div_iff₀ (by exact_mod_cast hb) (by exact_mod_cast hd), Nat.mul_comm d,
    Nat.mul_comm b]
  exact_mod_cast Iff.rfl

/-- **The computed placement is fitted.** -/
theorem fitted_exact (drawable : Drawable imageWidth imageHeight viewport reservedRows) :
    Fitted imageWidth imageHeight viewport reservedRows
      { columns := UInt16.ofNat (exactColumns imageWidth imageHeight viewport reservedRows)
        rows := UInt16.ofNat (exactRows imageWidth imageHeight viewport reservedRows)
        pixelWidth := UInt32.ofNat (exactSides imageWidth imageHeight viewport reservedRows).1
        pixelHeight :=
          UInt32.ofNat (exactSides imageWidth imageHeight viewport reservedRows).2 } := by
  have hsides := exactSides_le drawable
  have hcolumns := exactColumns_bounds drawable
  have hrows := exactRows_bounds drawable
  have hw := imageWidth.toNat_lt
  have hh := imageHeight.toNat_lt
  have hcolumns' := viewport.columns.toNat_lt
  have hrows' := viewport.rows.toNat_lt
  have hle : viewport.rowsLeft reservedRows ≤ viewport.rows.toNat := Nat.sub_le _ _
  have hlimits := div_lt_div_iff_cast (a := viewport.exactWidth)
    (c := viewport.heightLeft reservedRows) drawable.width_pos drawable.height_pos
  have hwidth : (UInt32.ofNat (exactSides imageWidth imageHeight viewport reservedRows).1).toNat =
      (exactSides imageWidth imageHeight viewport reservedRows).1 :=
    UInt32.toNat_ofNat_of_lt' ((hsides.1.2.trans (Nat.min_le_left _ _)).trans_lt hw)
  have hheight : (UInt32.ofNat (exactSides imageWidth imageHeight viewport reservedRows).2).toNat =
      (exactSides imageWidth imageHeight viewport reservedRows).2 :=
    UInt32.toNat_ofNat_of_lt' ((hsides.2.2.trans (Nat.min_le_left _ _)).trans_lt hh)
  have hcells : (UInt16.ofNat (exactColumns imageWidth imageHeight viewport reservedRows)).toNat =
      exactColumns imageWidth imageHeight viewport reservedRows :=
    UInt16.toNat_ofNat_of_lt' (hcolumns.2.trans_lt hcolumns')
  have hlines : (UInt16.ofNat (exactRows imageWidth imageHeight viewport reservedRows)).toNat =
      exactRows imageWidth imageHeight viewport reservedRows :=
    UInt16.toNat_ofNat_of_lt' ((hrows.2.trans hle).trans_lt hrows')
  constructor
  case width => simpa only [hwidth] using hsides.1
  case height => simpa only [hheight] using hsides.2
  case unscaled =>
    intro hfitW hfitH
    have heq : exactSides imageWidth imageHeight viewport reservedRows =
        (imageWidth.toNat, imageHeight.toNat) :=
      AspectFit.fittedSides_of_fits drawable.width_pos drawable.height_pos hfitW hfitH
    simp only [heq, UInt32.ofNat_toNat, and_self]
  case wide =>
    intro hnot hlt
    have heq := AspectFit.fittedSides_of_wide hnot (hlimits.1 hlt)
    rw [hwidth, hheight, exactSides, heq]
    refine ⟨rfl, ?_⟩
    rw [← Nat.cast_mul, Nat.floor_div_eq_div]
  case tall =>
    intro hnot hge
    have heq := AspectFit.fittedSides_of_tall hnot (not_lt.1 fun hlt => hge.not_gt (hlimits.2 hlt))
    rw [hwidth, hheight, exactSides, heq]
    refine ⟨rfl, ?_⟩
    rw [← Nat.cast_mul, Nat.floor_div_eq_div]
  case columns => simpa only [hcells, UInt16.le_iff_toNat_le] using hcolumns
  case rows => simpa only [hlines] using hrows
  case columnsLeast => simpa only [hwidth, hcells] using isLeast_exactColumns drawable
  case rowsLeast =>
    intro hpixel
    simpa only [hheight, hlines] using isLeast_exactRows drawable hpixel

/-- A centred placement starts on the screen and ends on it. -/
theorem placementLeft_bounds {placement : RasterPlacement}
    (hpos : 1 ≤ placement.columns.toNat) (hle : placement.columns ≤ viewport.columns) :
    1 ≤ placementLeft viewport placement ∧
      placementLeft viewport placement + placement.columns.toNat ≤ viewport.columns.toNat + 1 := by
  have hlt := viewport.columns.toNat_lt
  rw [UInt16.le_iff_toNat_le] at hle
  unfold placementLeft
  rw [saturatingSub_toNat]
  omega

end Placement

/-- **The placement of an image.**  An image that is not empty, on a viewport with a column and a
row that is not reserved, is placed; no step of the computation leaves the range of 64 bits, the
placement is fitted, and it stays within the columns and above the reserved rows when it is centred
and starts at the first row. -/
theorem fit_raster_exact (imageWidth imageHeight : UInt32) (viewport : Viewport)
    (reservedRows : UInt16) (hwidth : 0 < imageWidth) (hheight : 0 < imageHeight)
    (hcolumns : 0 < viewport.columns) (hrows : reservedRows < viewport.rows) :
    ∃ placement, fitRaster imageWidth imageHeight viewport reservedRows = .ok placement ∧
      fitRasterWith (AspectFit.checked U64_MAX) imageWidth imageHeight viewport reservedRows =
        some (.ok placement) ∧
      Fitted imageWidth imageHeight viewport reservedRows placement ∧
      (1 ≤ placementLeft viewport placement ∧
        placementLeft viewport placement + placement.columns.toNat - 1 ≤ viewport.columns.toNat) ∧
      1 + placement.rows.toNat - 1 ≤ viewport.rows.toNat - reservedRows.toNat := by
  have drawable : Drawable imageWidth imageHeight viewport reservedRows :=
    ⟨hwidth, hheight, hcolumns, hrows⟩
  have fitted := fitted_exact drawable
  obtain ⟨hleft, hright⟩ := placementLeft_bounds fitted.columns.1 fitted.columns.2
  refine ⟨_, fitRasterWith_eq drawable, fitRasterWith_eq drawable, fitted, ⟨hleft, ?_⟩, ?_⟩
  · omega
  · have hbelow := fitted.rows.2
    unfold Viewport.rowsLeft at hbelow
    omega

example : fitRaster 1920 1080 ⟨120, 40, some 1200, some 800⟩ 2 = .ok ⟨120, 34, 1200, 675⟩ := by
  decide

theorem fit_raster_exact_wide :
    ∃ placement, fitRaster 1920 1080 ⟨120, 40, some 1200, some 800⟩ 2 = .ok placement ∧
      Fitted 1920 1080 ⟨120, 40, some 1200, some 800⟩ 2 placement := by
  obtain ⟨placement, hfit, -, hfitted, -⟩ := fit_raster_exact 1920 1080
    ⟨120, 40, some 1200, some 800⟩ 2 (by decide) (by decide) (by decide) (by decide)
  exact ⟨placement, hfit, hfitted⟩

end TermInterop
