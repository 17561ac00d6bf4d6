/-
Lossy UTF-8 decoding.

A byte string is decoded one byte at a time.  Between characters the next byte starts a character;
inside a character it must lie in the range that the bytes so far leave open.  A byte outside that
range ends the character: what was read of it becomes one replacement character, and the byte is
looked at again as the start of a new one.  This is the replacement of *maximal subparts*, which is
what the standard libraries of Rust and of the web perform.

The bounds of the open range are kept together with the reason why no completion is overlong, so
that a byte outside ASCII can never produce an ASCII character.  Everything below follows from that
and from the fact that an ASCII byte always stands for itself.

Main definitions:

* `Utf8Lossy.Pending`, `Utf8Lossy.State` — a character begun, and the state between bytes;
* `Utf8Lossy.step`, `Utf8Lossy.run`, `Utf8Lossy.decode` — the decoder;
* `Utf8Lossy.decodeStrict` — the decoder that replaces nothing.

Main results:

* `Utf8Lossy.length_decode_le` — no more characters are written than there are bytes;
* `Utf8Lossy.run_append_ascii` — decoding restarts at every ASCII byte;
* `Utf8Lossy.run_eq_cons` — an ASCII character comes from its own byte;
* `Utf8Lossy.decode_eq_iff` — **ASCII text is decoded from its own bytes only**;
* `Utf8Lossy.followedBy_run` — what follows what, among ASCII characters, is unchanged.
-/

import TermInterop.Text

set_option relaxedAutoImplicit false
set_option autoImplicit false

namespace Utf8Lossy

open Text (FollowedBy followedBy_append_of_notMem)

/-! ### The decoder -/

/-- The replacement character. -/
def replacement : Char := '\uFFFD'

/-- A character begun: how many bytes are to follow the next one, the value of the bits so far, and
the range of the next byte. -/
structure Pending where
  more : ℕ
  acc : ℕ
  lo : ℕ
  hi : ℕ
  lo_ge : 0x80 ≤ lo
  hi_le : hi ≤ 0xBF
  /-- No completion is an overlong encoding of an ASCII character. -/
  not_overlong : 2 ≤ acc ∨ 0 < more ∧ (1 ≤ acc ∨ 0x90 ≤ lo)

/-- The state between two bytes. -/
inductive State
  | start
  | pending (p : Pending)

/-- What remains to be written at the end of the input. -/
def finish : State → List Char
  | State.start => []
  | State.pending _ => [replacement]

/-- The character of a value, if it is one. -/
def scalar (n : ℕ) : Char := if n.isValidChar then Char.ofNat n else replacement

/-- The first byte of a character. -/
def lead (b : UInt8) : List Char × State :=
  let n := b.toNat
  if n < 0x80 then ([Char.ofNat n], State.start)
  else if h : 0xC2 ≤ n ∧ n ≤ 0xDF then
    ([], State.pending ⟨0, n - 0xC0, 0x80, 0xBF, by omega, by omega, by omega⟩)
  else if n = 0xE0 then ([], State.pending ⟨1, 0, 0xA0, 0xBF, by omega, by omega, by omega⟩)
  else if n = 0xED then ([], State.pending ⟨1, 0xD, 0x80, 0x9F, by omega, by omega, by omega⟩)
  else if h : 0xE1 ≤ n ∧ n ≤ 0xEF then
    ([], State.pending ⟨1, n - 0xE0, 0x80, 0xBF, by omega, by omega, by omega⟩)
  else if n = 0xF0 then ([], State.pending ⟨2, 0, 0x90, 0xBF, by omega, by omega, by omega⟩)
  else if h : 0xF1 ≤ n ∧ n ≤ 0xF3 then
    ([], State.pending ⟨2, n - 0xF0, 0x80, 0xBF, by omega, by omega, by omega⟩)
  else if n = 0xF4 then ([], State.pending ⟨2, 4, 0x80, 0x8F, by omega, by omega, by omega⟩)
  else ([replacement], State.start)

/-- A continuation byte within the open range. -/
def continuation (p : Pending) (n : ℕ) (h : p.lo ≤ n ∧ n ≤ p.hi) : List Char × State :=
  match hm : p.more with
  | 0 => ([scalar (p.acc * 64 + n % 64)], State.start)
  | more + 1 =>
      ([], State.pending ⟨more, p.acc * 64 + n % 64, 0x80, 0xBF, by omega, by omega, by
        have hlo := p.lo_ge
        have hhi := p.hi_le
        have hacc := p.not_overlong
        omega⟩)

/-- **One byte**: what it writes, and the state after it. -/
def step : State → UInt8 → List Char × State
  | State.start, b => lead b
  | State.pending p, b =>
      if h : p.lo ≤ b.toNat ∧ b.toNat ≤ p.hi then continuation p b.toNat h
      else (replacement :: (lead b).1, (lead b).2)

/-- The characters of a byte string, from a state. -/
def run : State → List UInt8 → List Char
  | s, [] => finish s
  | s, b :: bs => (step s b).1 ++ run (step s b).2 bs

/-- **Lossy decoding.** -/
def decode (bs : List UInt8) : List Char := run State.start bs

@[simp] theorem decode_nil : decode [] = [] := rfl

/-! ### What one byte writes -/

theorem lead_ascii {b : UInt8} (h : b.toNat < 0x80) :
    lead b = ([Char.ofNat b.toNat], State.start) := if_pos h

/-- **An ASCII byte stands for itself** and ends what was begun. -/
theorem step_ascii (s : State) {b : UInt8} (h : b.toNat < 0x80) :
    step s b = (finish s ++ [Char.ofNat b.toNat], State.start) := by
  cases s with
  | start => exact lead_ascii h
  | pending p =>
      have hlo := p.lo_ge
      rw [step, dif_neg (by omega), lead_ascii h]
      rfl

/-- A first byte outside ASCII writes nothing or the replacement character. -/
theorem lead_eq_or {b : UInt8} (h : 0x80 ≤ b.toNat) :
    (∃ p, lead b = ([], State.pending p)) ∨ lead b = ([replacement], State.start) := by
  simp only [lead, if_neg (Nat.not_lt.2 h)]
  split_ifs
  all_goals first | exact Or.inl ⟨_, rfl⟩ | exact Or.inr rfl

theorem le_toNat_replacement : 0x80 ≤ replacement.toNat := by decide

theorem le_toNat_scalar {n : ℕ} (h : 0x80 ≤ n) : 0x80 ≤ (scalar n).toNat := by
  rw [scalar]
  split
  · rename_i hv
    rw [Char.toNat_ofNat, if_pos hv]
    exact h
  · exact le_toNat_replacement

/-- **What a byte outside ASCII does**: it writes no ASCII character, and it stays silent only
inside a character. -/
theorem step_of_le (s : State) {b : UInt8} (h : 0x80 ≤ b.toNat) :
    (∀ c ∈ (step s b).1, 0x80 ≤ c.toNat) ∧ ((step s b).1 = [] → (step s b).2 ≠ State.start) := by
  have hlead : (∀ c ∈ (lead b).1, 0x80 ≤ c.toNat) ∧
      ((lead b).1 = [] → (lead b).2 ≠ State.start) := by
    obtain ⟨p, hp⟩ | hr := lead_eq_or h
    · simp [hp]
    · simpa [hr] using le_toNat_replacement
  cases s with
  | start => exact hlead
  | pending p =>
      rw [step]
      split
      · rename_i hrange
        rw [continuation]
        split
        · rename_i hmore
          have hacc := p.not_overlong
          simpa using le_toNat_scalar (by omega)
        · simp
      · simpa using ⟨le_toNat_replacement, hlead.1⟩

/-! ### The length of what is written -/

/-- A byte writes a character at most, besides what was begun. -/
theorem length_step_le (s : State) (b : UInt8) :
    (step s b).1.length + (finish (step s b).2).length ≤ (finish s).length + 1 := by
  have hlead : (lead b).1.length + (finish (lead b).2).length ≤ 1 := by
    rcases Nat.lt_or_ge b.toNat 0x80 with hascii | hwide
    · rw [lead_ascii hascii]
      exact le_refl _
    · obtain ⟨p, hp⟩ | hr := lead_eq_or hwide
      · rw [hp]
        exact le_refl _
      · rw [hr]
        exact le_refl _
  cases s with
  | start => exact hlead.trans (Nat.le_add_left _ _)
  | pending p =>
      rw [step]
      split
      · rename_i hrange
        rw [continuation]
        split
        · exact Nat.le_add_left _ _
        · exact Nat.le_add_left _ _
      · change ((lead b).1.length + 1) + (finish (lead b).2).length ≤ 1 + 1
        omega

/-- **Decoding writes no more characters than there are bytes.** -/
theorem length_decode_le (bs : List UInt8) : (decode bs).length ≤ bs.length := by
  have hrun : ∀ s, (run s bs).length ≤ bs.length + (finish s).length := by
    induction bs with
    | nil => exact fun s => Nat.le_add_left _ _
    | cons b bs ih =>
        intro s
        have hstep := length_step_le s b
        have hrest := ih (step s b).2
        rw [run, List.length_append, List.length_cons]
        omega
  exact hrun State.start

/-! ### ASCII text -/

/-- Decoding restarts at every ASCII byte. -/
theorem run_append_ascii (s : State) (xs : List UInt8) {a : UInt8} (ha : a.toNat < 0x80)
    (ys : List UInt8) :
    run s (xs ++ a :: ys) = run s xs ++ Char.ofNat a.toNat :: decode ys := by
  induction xs generalizing s with
  | nil => simp [run, step_ascii s ha, decode]
  | cons x xs ih => simp [run, ih]

/-- **An ASCII character comes from its own byte**, read between characters. -/
theorem run_eq_cons {s : State} {bs : List UInt8} {c : Char} {rest : List Char}
    (h : run s bs = c :: rest) (hc : c.toNat < 0x80) :
    s = State.start ∧ ∃ b bs', bs = b :: bs' ∧ b.toNat = c.toNat ∧ rest = decode bs' := by
  induction bs generalizing s with
  | nil =>
      cases s with
      | start => cases h
      | pending p =>
          obtain ⟨rfl, -⟩ := List.cons.inj h
          exact absurd hc (Nat.not_lt.2 le_toNat_replacement)
  | cons b bs ih =>
      rw [run] at h
      rcases Nat.lt_or_ge b.toNat 0x80 with hb | hb
      · rw [step_ascii s hb] at h
        cases s with
        | start =>
            obtain ⟨rfl, rfl⟩ := List.cons.inj h
            refine ⟨rfl, b, bs, rfl, ?_, rfl⟩
            rw [Char.toNat_ofNat, if_pos (Or.inl (by omega))]
        | pending p =>
            obtain ⟨rfl, -⟩ := List.cons.inj h
            exact absurd hc (Nat.not_lt.2 le_toNat_replacement)
      · obtain ⟨hout, hsilent⟩ := step_of_le s hb
        cases hw : (step s b).1 with
        | nil =>
            rw [hw] at h
            exact absurd (ih h).1 (hsilent hw)
        | cons d ds =>
            rw [hw] at h
            obtain ⟨rfl, -⟩ := List.cons.inj h
            exact absurd hc (Nat.not_lt.2 (hout d (by rw [hw]; exact List.mem_cons_self)))

/-- Every byte leaves a trace. -/
theorem run_eq_nil {s : State} {bs : List UInt8} (h : run s bs = []) :
    s = State.start ∧ bs = [] := by
  induction bs generalizing s with
  | nil =>
      cases s with
      | start => exact ⟨rfl, rfl⟩
      | pending p => cases h
  | cons b bs ih =>
      rw [run, List.append_eq_nil_iff] at h
      obtain ⟨hw, hrest⟩ := h
      rcases Nat.lt_or_ge b.toNat 0x80 with hb | hb
      · simp [step_ascii s hb] at hw
      · exact absurd (ih hrest).1 ((step_of_le s hb).2 hw)

/-- **ASCII text is decoded from its own bytes only.** -/
theorem decode_eq_iff {bs : List UInt8} {cs : List Char} (hcs : ∀ c ∈ cs, c.toNat < 0x80) :
    decode bs = cs ↔ bs = cs.map Text.asciiByte := by
  induction cs generalizing bs with
  | nil =>
      constructor
      · intro h; exact (run_eq_nil h).2
      · rintro rfl; rfl
  | cons c cs ih =>
      have hc : c.toNat < 0x80 := hcs c List.mem_cons_self
      have hrest : ∀ d ∈ cs, d.toNat < 0x80 := fun d hd => hcs d (List.mem_cons_of_mem c hd)
      have hbyte : (Text.asciiByte c).toNat = c.toNat := by
        rw [Text.asciiByte, UInt8.toNat_ofNat']; omega
      constructor
      · intro h
        obtain ⟨-, b, bs', rfl, hb, hbs'⟩ := run_eq_cons h hc
        have heq : b = Text.asciiByte c := UInt8.toNat_inj.1 (hb.trans hbyte.symm)
        rw [List.map_cons, heq, (ih hrest).1 hbs'.symm]
      · rintro rfl
        have hdec := run_append_ascii State.start [] (a := Text.asciiByte c) (by omega)
          (cs.map Text.asciiByte)
        rw [hbyte, Char.ofNat_toNat, (ih hrest).2 rfl] at hdec
        exact hdec

/-- The bytes of ASCII text are decoded to the text. -/
theorem decode_asBytes {s : String} (h : ∀ c ∈ s.toList, c.toNat < 128) :
    decode (Text.asBytes s) = s.toList :=
  (decode_eq_iff h).2 (Text.utf8_of_ascii h)

/-! ### What follows what -/

/-- The first character is ASCII exactly when the first byte is. -/
theorem head?_decode {bs : List UInt8} {c : Char} (hc : c.toNat < 0x80) :
    (decode bs).head? = some c ↔ bs.head? = some (Text.asciiByte c) := by
  have hbyte : (Text.asciiByte c).toNat = c.toNat := by
    rw [Text.asciiByte, UInt8.toNat_ofNat']; omega
  constructor
  · intro h
    obtain ⟨rest, hrest⟩ := List.head?_eq_some_iff.1 h
    obtain ⟨-, b, bs', rfl, hb, -⟩ := run_eq_cons hrest hc
    exact congrArg some (UInt8.toNat_inj.1 (hb.trans hbyte.symm))
  · intro h
    obtain ⟨bs', rfl⟩ := List.head?_eq_some_iff.1 h
    have hdec := run_append_ascii State.start [] (a := Text.asciiByte c) (by omega) bs'
    rw [hbyte, Char.ofNat_toNat] at hdec
    rw [decode, List.nil_append] at *
    rw [hdec]
    rfl

/-- **Among ASCII characters, what follows what is unchanged by decoding.** -/
theorem followedBy_run {x y : Char} (hx : x.toNat < 0x80) (hy : y.toNat < 0x80) (s : State)
    (bs : List UInt8) :
    FollowedBy x y (run s bs) ↔ FollowedBy (Text.asciiByte x) (Text.asciiByte y) bs := by
  have hbyte : (Text.asciiByte x).toNat = x.toNat := by
    rw [Text.asciiByte, UInt8.toNat_ofNat']; omega
  have hne : x ≠ replacement := by
    rintro rfl
    exact absurd hx (Nat.not_lt.2 le_toNat_replacement)
  induction bs generalizing s with
  | nil => cases s <;> simp [run, finish, FollowedBy, hne.symm]
  | cons b bs ih =>
      rw [run, FollowedBy]
      rcases Nat.lt_or_ge b.toNat 0x80 with hb | hb
      · have hfin : x ∉ finish s := by cases s <;> simp [finish, hne]
        have hiff : Char.ofNat b.toNat = x ↔ b = Text.asciiByte x := by
          constructor
          · rintro rfl
            rw [Text.asciiByte, Char.toNat_ofNat, if_pos (Or.inl (by omega)), UInt8.ofNat_toNat]
          · rintro rfl
            rw [hbyte, Char.ofNat_toNat]
        rw [step_ascii s hb, List.append_assoc, followedBy_append_of_notMem hfin]
        simp only [List.singleton_append, FollowedBy]
        rw [hiff, ← decode, head?_decode hy]
        exact and_congr_right fun _ => ih State.start
      · obtain ⟨hout, -⟩ := step_of_le s hb
        have hnot : x ∉ (step s b).1 := fun hmem => absurd hx (Nat.not_lt.2 (hout x hmem))
        have hb' : b ≠ Text.asciiByte x := by
          rintro rfl
          omega
        rw [followedBy_append_of_notMem hnot]
        simpa [hb'] using ih (step s b).2

/-! ### Strict decoding -/

/-- Strict decoding: a byte string is accepted when it is the encoding of what it decodes to. -/
def decodeStrict (bs : List UInt8) : Option (List Char) :=
  if Text.utf8 (decode bs) = bs then some (decode bs) else none

/-- ASCII bytes are decoded one by one. -/
theorem decode_of_ascii {bs : List UInt8} (h : ∀ b ∈ bs, b.toNat < 0x80) :
    decode bs = bs.map fun b => Char.ofNat b.toNat := by
  have hchar : ∀ b ∈ bs, (Char.ofNat b.toNat).toNat = b.toNat := by
    intro b hb
    have hlt := h b hb
    rw [Char.toNat_ofNat, if_pos (Or.inl (by omega))]
  refine (decode_eq_iff ?_).2 ?_
  · simp only [List.forall_mem_map]
    intro b hb
    rw [hchar b hb]
    exact h b hb
  · rw [List.map_map]
    refine (List.map_id bs).symm.trans (List.map_congr_left fun b hb => ?_)
    rw [Function.comp_apply, Text.asciiByte, hchar b hb, UInt8.ofNat_toNat, id]

/-- ASCII bytes are accepted. -/
theorem decodeStrict_of_ascii {bs : List UInt8} (h : ∀ b ∈ bs, b.toNat < 0x80) :
    decodeStrict bs = some (decode bs) := by
  rw [decodeStrict, if_pos]
  have hascii : ∀ c ∈ decode bs, c.toNat < 0x80 := by
    rw [decode_of_ascii h, List.forall_mem_map]
    intro b hb
    have hlt := h b hb
    rw [Char.toNat_ofNat, if_pos (Or.inl (by omega))]
    exact hlt
  rw [Text.utf8_of_ascii hascii, ← (decode_eq_iff hascii).1 rfl]

end Utf8Lossy
