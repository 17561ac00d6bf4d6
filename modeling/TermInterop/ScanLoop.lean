/-
The scanning loop.

A scanner walks over a buffer.  At every offset it asks a recognizer for an item; when there is one
it records the item and continues behind it, and otherwise it continues at the next offset.  The
recognizer may depend on a state that changes with every recorded item, such as a sequence number.

The loop is written with fuel, so that it can be evaluated; `ScanLoop.scanFrom_eq` shows that the
length of the rest of the buffer is always enough fuel, because a recognizer makes progress.  All
other results are derived from that equation: what is skipped, what is found, and how the state of
the recognizer is related to the position of an item in the result.

Main definitions:

* `ScanLoop.Recognizer` — a recognizer that makes progress;
* `ScanLoop.scanFrom`, `ScanLoop.scan` — the loop.

Main results:

* `ScanLoop.scanFrom_eq` — **the loop is the while loop it stands for**;
* `ScanLoop.scanFrom_skip`, `ScanLoop.scanFrom_hit` — skipping and finding;
* `ScanLoop.scanFrom_induction` — an induction rule for what the loop records;
* `ScanLoop.getElem?_scanFrom` — the state in which an item was recognized;
* `ScanLoop.sum_scanFrom_le`, `ScanLoop.length_scanFrom_le` — how much and how many the items are.
-/

import Mathlib

set_option relaxedAutoImplicit false
set_option autoImplicit false

namespace ScanLoop

variable {σ α : Type*}

/-- A recognizer: in a state and at an offset, an item and the offset behind it.  It makes
progress. -/
structure Recognizer (σ α : Type*) where
  find : σ → ℕ → Option (α × ℕ)
  progress : ∀ s offset item next, find s offset = some (item, next) → offset < next

/-- The loop, with fuel. -/
def loop (R : Recognizer σ α) (succ : σ → σ) (len : ℕ) : ℕ → σ → ℕ → List α
  | 0, _, _ => []
  | fuel + 1, s, offset =>
      if offset < len then
        match R.find s offset with
        | some (item, next) => item :: loop R succ len fuel (succ s) next
        | none => loop R succ len fuel s (offset + 1)
      else []

/-- The items of a buffer of a given length from an offset on. -/
def scanFrom (R : Recognizer σ α) (succ : σ → σ) (len : ℕ) (s : σ) (offset : ℕ) : List α :=
  loop R succ len (len - offset) s offset

/-- The items of a buffer of a given length. -/
def scan (R : Recognizer σ α) (succ : σ → σ) (len : ℕ) (s : σ) : List α :=
  scanFrom R succ len s 0

variable {R : Recognizer σ α} {succ : σ → σ} {len : ℕ}

/-! ### The loop is the while loop -/

theorem loop_of_le {fuel : ℕ} {s : σ} {offset : ℕ} (h : len ≤ offset) :
    loop R succ len fuel s offset = [] := by
  cases fuel with
  | zero => rfl
  | succ fuel => rw [loop, if_neg (Nat.not_lt.2 h)]

/-- Fuel beyond the length of the rest makes no difference. -/
theorem loop_fuel {f g : ℕ} {s : σ} {offset : ℕ} (hf : len - offset ≤ f)
    (hg : len - offset ≤ g) : loop R succ len f s offset = loop R succ len g s offset := by
  induction f generalizing g s offset with
  | zero => rw [loop_of_le (by omega), loop_of_le (by omega)]
  | succ f ih =>
      rcases Nat.lt_or_ge offset len with hlt | hge
      · obtain ⟨g, rfl⟩ : ∃ k, g = k + 1 := ⟨g - 1, by omega⟩
        rw [loop, loop, if_pos hlt, if_pos hlt]
        cases hfind : R.find s offset with
        | none => exact ih (by omega) (by omega)
        | some hit =>
            obtain ⟨item, next⟩ := hit
            have hnext := R.progress s offset item next hfind
            exact congrArg (item :: ·) (ih (by omega) (by omega))
      · rw [loop_of_le hge, loop_of_le hge]

/-- **The loop is the while loop it stands for.** -/
theorem scanFrom_eq (s : σ) (offset : ℕ) :
    scanFrom R succ len s offset =
      if offset < len then
        match R.find s offset with
        | some (item, next) => item :: scanFrom R succ len (succ s) next
        | none => scanFrom R succ len s (offset + 1)
      else [] := by
  split
  · rename_i hlt
    obtain ⟨g, hg⟩ : ∃ g, len - offset = g + 1 := ⟨len - offset - 1, by omega⟩
    rw [scanFrom, hg, loop, if_pos hlt]
    cases hfind : R.find s offset with
    | none => exact loop_fuel (by omega) (by omega)
    | some hit =>
        obtain ⟨item, next⟩ := hit
        have hnext := R.progress s offset item next hfind
        exact congrArg (item :: ·) (loop_fuel (by omega) (by omega))
  · rename_i hge
    rw [scanFrom, show len - offset = 0 by omega, loop]

/-- Behind the buffer there is nothing. -/
theorem scanFrom_of_le {s : σ} {offset : ℕ} (h : len ≤ offset) :
    scanFrom R succ len s offset = [] := by
  rw [scanFrom_eq, if_neg (by omega)]

/-! ### Skipping and finding -/

/-- A recognized item is recorded, and the loop continues behind it. -/
theorem scanFrom_hit {s : σ} {offset next : ℕ} {item : α} (hlt : offset < len)
    (h : R.find s offset = some (item, next)) :
    scanFrom R succ len s offset = item :: scanFrom R succ len (succ s) next := by
  rw [scanFrom_eq, if_pos hlt, h]

theorem scanFrom_miss {s : σ} {offset : ℕ} (h : R.find s offset = none) :
    scanFrom R succ len s offset = scanFrom R succ len s (offset + 1) := by
  rcases Nat.lt_or_ge offset len with hlt | hge
  · rw [scanFrom_eq, if_pos hlt, h]
  · rw [scanFrom_of_le hge, scanFrom_of_le (by omega)]

/-- Offsets without an item are skipped. -/
theorem scanFrom_skip {s : σ} {offset : ℕ} (k : ℕ)
    (h : ∀ j < k, R.find s (offset + j) = none) :
    scanFrom R succ len s offset = scanFrom R succ len s (offset + k) := by
  induction k with
  | zero => rfl
  | succ k ih =>
      rw [ih fun j hj => h j (by omega), scanFrom_miss (h k (by omega)), Nat.add_assoc]

/-! ### What the loop records -/

/-- **Induction over a scan.**  A relation between a state, an offset and a list of items holds of
what the loop records when it holds behind the buffer, is preserved by skipping an offset, and is
preserved by recording an item. -/
theorem scanFrom_induction {P : σ → ℕ → List α → Prop}
    (hend : ∀ s offset, len ≤ offset → P s offset [])
    (hskip : ∀ s offset items, offset < len → R.find s offset = none →
      P s (offset + 1) items → P s offset items)
    (hhit : ∀ s offset item next items, offset < len → R.find s offset = some (item, next) →
      P (succ s) next items → P s offset (item :: items))
    (s : σ) (offset : ℕ) : P s offset (scanFrom R succ len s offset) := by
  obtain ⟨n, hn⟩ : ∃ n, n = len - offset := ⟨_, rfl⟩
  induction n using Nat.strong_induction_on generalizing s offset with
  | _ n ih =>
      rcases Nat.lt_or_ge offset len with hlt | hge
      · cases hfind : R.find s offset with
        | none =>
            rw [scanFrom_miss hfind]
            exact hskip s offset _ hlt hfind (ih _ (by omega) s (offset + 1) rfl)
        | some hit =>
            obtain ⟨item, next⟩ := hit
            have hnext := R.progress s offset item next hfind
            rw [scanFrom_hit hlt hfind]
            exact hhit s offset item next _ hlt hfind (ih _ (by omega) (succ s) next rfl)
      · rw [scanFrom_of_le hge]
        exact hend s offset hge

/-- Every recorded item was recognized at some offset, in the state that its position in the result
determines. -/
theorem getElem?_scanFrom (s : σ) (offset : ℕ) :
    ∀ k item, (scanFrom R succ len s offset)[k]? = some item →
      ∃ o next, R.find (succ^[k] s) o = some (item, next) := by
  refine @scanFrom_induction σ α R succ len
    (P := fun s _ items => ∀ k item, items[k]? = some item →
      ∃ o next, R.find (succ^[k] s) o = some (item, next)) ?_ ?_ ?_ s offset
  · intro s offset _ k item h
    simp at h
  · intro s offset items _ _ ih
    exact ih
  · intro s offset item next items _ hfind ih k item' h
    cases k with
    | zero =>
        obtain rfl : item = item' := by simpa using h
        exact ⟨offset, next, hfind⟩
    | succ k => exact ih k item' (by simpa using h)

/-- What the loop records first, and what it records behind it. -/
theorem scanFrom_eq_cons {s : σ} {offset : ℕ} {item : α} {items : List α}
    (h : scanFrom R succ len s offset = item :: items) :
    ∃ o next, R.find s o = some (item, next) ∧ items = scanFrom R succ len (succ s) next := by
  obtain ⟨n, hn⟩ : ∃ n, n = len - offset := ⟨_, rfl⟩
  induction n generalizing offset with
  | zero =>
      rw [scanFrom_of_le (by omega)] at h
      cases h
  | succ n ih =>
      cases hfind : R.find s offset with
      | none =>
          rw [scanFrom_miss hfind] at h
          exact ih h (by omega)
      | some hit =>
          obtain ⟨item', next⟩ := hit
          rw [scanFrom_hit (by omega) hfind] at h
          obtain ⟨rfl, rfl⟩ := List.cons.inj h
          exact ⟨offset, next, hfind, rfl⟩

/-- Where nothing is recorded, nothing is recognized. -/
theorem find_eq_none_of_scanFrom {s : σ} {offset o : ℕ} (h : scanFrom R succ len s offset = [])
    (hle : offset ≤ o) (hlt : o < len) : R.find s o = none := by
  obtain ⟨n, rfl⟩ := Nat.exists_eq_add_of_le hle
  induction n generalizing offset with
  | zero =>
      rw [Nat.add_zero] at hlt ⊢
      cases hfind : R.find s offset with
      | none => rfl
      | some hit =>
          rw [scanFrom_hit hlt hfind] at h
          cases h
  | succ n ih =>
      cases hfind : R.find s offset with
      | none =>
          rw [scanFrom_miss hfind] at h
          rw [show offset + (n + 1) = offset + 1 + n by omega] at hlt ⊢
          exact ih h (by omega) hlt
      | some hit =>
          rw [scanFrom_hit (by omega) hfind] at h
          cases h

/-- **A weight that every item spreads over its own bytes** is bounded by the number of items and
the length of the buffer. -/
theorem sum_scanFrom_le (weight : α → ℕ) (fixed slope : ℕ)
    (h : ∀ s offset item next, R.find s offset = some (item, next) →
      next ≤ len ∧ weight item ≤ fixed + slope * (next - offset)) (s : σ) (offset : ℕ) :
    ((scanFrom R succ len s offset).map weight).sum ≤
      fixed * (scanFrom R succ len s offset).length + slope * (len - offset) := by
  refine @scanFrom_induction σ α R succ len
    (P := fun _ offset items =>
      (items.map weight).sum ≤ fixed * items.length + slope * (len - offset)) ?_ ?_ ?_ s offset
  · intro s offset _
    exact Nat.zero_le _
  · intro s offset items _ _ ih
    exact ih.trans (Nat.add_le_add_left (Nat.mul_le_mul_left _ (by omega)) _)
  · intro s offset item next items _ hfind ih
    obtain ⟨hinside, hweight⟩ := h s offset item next hfind
    have hnext := R.progress s offset item next hfind
    have hsplit : slope * (len - offset) = slope * (next - offset) + slope * (len - next) := by
      rw [← Nat.mul_add]
      exact congrArg (slope * ·) (by omega)
    rw [List.map_cons, List.sum_cons, List.length_cons, Nat.mul_succ, hsplit]
    omega

/-- Items of a least length are no more than fit into the buffer. -/
theorem length_scanFrom_le (least : ℕ)
    (h : ∀ s offset item next, R.find s offset = some (item, next) →
      next ≤ len ∧ offset + least ≤ next) (s : σ) (offset : ℕ) :
    least * (scanFrom R succ len s offset).length ≤ len - offset := by
  refine @scanFrom_induction σ α R succ len
    (P := fun _ offset items => least * items.length ≤ len - offset) ?_ ?_ ?_ s offset
  · intro s offset _
    exact Nat.zero_le _
  · intro s offset items _ _ ih
    exact ih.trans (by omega)
  · intro s offset item next items _ hfind ih
    obtain ⟨hinside, hleast⟩ := h s offset item next hfind
    rw [List.length_cons, Nat.mul_succ]
    omega

end ScanLoop
