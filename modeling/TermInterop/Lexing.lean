/-
Scanning for tokens.

A lexicon gives every token its bytes.  Scanning an input for tokens means to look for one at every
offset, and to continue behind it where one stands; `Lexed` says this as a relation between an input
and a list of tokens with their offsets, without a loop.  The relation determines which parts of an
input are evidence of a token: the tokens do not overlap, and outside of them no token stands.

A recognizer of the scanning loop recognizes a lexicon when it finds an item exactly where a token
stands.  What the loop records are then the items of the lexed tokens.

A token that is cut off at the end of an input is not found there, but may be found once more of the
input is known.  Where no token lies strictly inside another one, this takes nothing back: the
tokens of a beginning are the first tokens of the whole.

A reader that waits for certain sequences is not woken by a text when none of them lies in it.  This
is no property of the parts of a text, since a sequence may begin in one part and end in the next.
A text is *free* when no sequence begins in it at all, neither one that it completes nor one that is
left to be completed; free texts can be put together.  Where every sequence begins with a mark, only
the marks of a text matter.

Main definitions:

* `Lexing.Lexicon`, `Lexing.Lexicon.StandsAt` — tokens and where they stand;
* `Lexing.Lexed` — the tokens of an input from an offset on;
* `Lexing.Recognizes` — a recognizer of a lexicon;
* `Heads.Free` — no head begins in a text.

Main results:

* `Lexing.Lexed.not_standsAt` — outside of the tokens there is none;
* `Lexing.scanFrom_of_lexed` — **the loop records the tokens**;
* `Lexing.mem_scan_iff` — **the loop records what stands anywhere**, when tokens are marked;
* `Lexing.Lexed.append` — **the tokens of a beginning are the first tokens of the whole**;
* `Heads.free_append` — **free texts can be put together**;
* `Heads.free_of_notMem`, `Heads.not_infix_of_free` — a text without the mark is free, and no head
  lies in a free text.
-/

import TermInterop.ScanLoop

set_option relaxedAutoImplicit false
set_option autoImplicit false

namespace Lexing

/-- Tokens and their bytes. -/
structure Lexicon (β φ : Type*) where
  bytes : φ → List β
  nonempty : ∀ token, bytes token ≠ []

variable {β φ σ α : Type*}

namespace Lexicon

variable (L : Lexicon β φ)

/-- A token stands in an input at an offset. -/
def StandsAt (input : List β) (offset : ℕ) (token : φ) : Prop :=
  L.bytes token <+: input.drop offset

/-- No token begins with another one. -/
def PrefixFree : Prop := ∀ first second, L.bytes first <+: L.bytes second → first = second

/-- Every token starts with a mark and does not contain it again. -/
def Marked (mark : β) : Prop := ∀ token, ∃ tail, L.bytes token = mark :: tail ∧ mark ∉ tail

/-- No token lies strictly inside another one. -/
def Separate : Prop := ∀ outer inner before after,
  L.bytes outer = before ++ L.bytes inner ++ after → before = []

variable {L} {input : List β} {offset : ℕ} {token : φ}

/-- Tokens that start with a mark and do not contain it again are separate. -/
theorem Marked.separate {mark : β} (h : L.Marked mark) : L.Separate := by
  intro outer inner before after heq
  obtain ⟨tail, htail, hnot⟩ := h outer
  obtain ⟨tail', htail', -⟩ := h inner
  cases before with
  | nil => rfl
  | cons x before =>
      rw [htail, htail', List.cons_append, List.cons_append] at heq
      refine absurd ?_ hnot
      rw [(List.cons.inj heq).2]
      simp

theorem length_pos (token : φ) : 0 < (L.bytes token).length :=
  List.length_pos_of_ne_nil (L.nonempty token)

/-- **A stream of tokens is split in one way** when no token begins with another one. -/
theorem flatMap_bytes_injective (h : L.PrefixFree) :
    Function.Injective fun tokens : List φ => tokens.flatMap L.bytes := by
  intro xs ys heq
  induction xs generalizing ys with
  | nil =>
      cases ys with
      | nil => rfl
      | cons y ys =>
          have hnil := (List.append_eq_nil_iff.1 heq.symm).1
          exact absurd hnil (L.nonempty y)
  | cons x xs ih =>
      cases ys with
      | nil =>
          have hnil := (List.append_eq_nil_iff.1 heq).1
          exact absurd hnil (L.nonempty x)
      | cons y ys =>
          have hsplit : L.bytes x ++ xs.flatMap L.bytes = L.bytes y ++ ys.flatMap L.bytes := heq
          -- both first tokens begin the same stream
          have hxy : x = y := by
            have hx : L.bytes x <+: L.bytes y ++ ys.flatMap L.bytes :=
              hsplit ▸ List.prefix_append _ _
            rcases List.prefix_or_prefix_of_prefix hx (List.prefix_append _ _) with hpre | hpre
            · exact h x y hpre
            · exact (h y x hpre).symm
          subst hxy
          rw [ih (List.append_cancel_left hsplit)]

/-- A token that stands in an input ends in it. -/
theorem StandsAt.le (h : L.StandsAt input offset token) :
    offset + (L.bytes token).length ≤ input.length := by
  have hlen := h.length_le
  have hpos := L.length_pos token
  rw [List.length_drop] at hlen
  omega

/-- A token that stands in a beginning stands in the whole. -/
theorem StandsAt.append (h : L.StandsAt input offset token) (more : List β) :
    L.StandsAt (input ++ more) offset token := by
  have hle := h.le
  have hpos := L.length_pos token
  unfold StandsAt at h ⊢
  rw [List.drop_append_of_le_length (by omega)]
  exact h.trans (List.prefix_append _ _)

end Lexicon

open Lexicon

variable {L : Lexicon β φ} {input : List β}

/-- **The tokens of an input from an offset on**, with the offsets at which they stand. -/
inductive Lexed (L : Lexicon β φ) (input : List β) : ℕ → List (ℕ × φ) → Prop
  | done {offset : ℕ} (nothing : ∀ j token, offset ≤ j → ¬ L.StandsAt input j token) :
      Lexed L input offset []
  | token {offset start : ℕ} {token : φ} {rest : List (ℕ × φ)} (le : offset ≤ start)
      (nothing : ∀ j token, offset ≤ j → j < start → ¬ L.StandsAt input j token)
      (stands : L.StandsAt input start token)
      (lexed : Lexed L input (start + (L.bytes token).length) rest) :
      Lexed L input offset ((start, token) :: rest)

namespace Lexed

variable {offset : ℕ} {tokens : List (ℕ × φ)}

/-- An offset at which no token stands may be skipped. -/
theorem skip (hnone : ∀ token, ¬ L.StandsAt input offset token)
    (h : Lexed L input (offset + 1) tokens) : Lexed L input offset tokens := by
  cases h with
  | done nothing =>
      refine done fun j token hj => ?_
      rcases Nat.eq_or_lt_of_le hj with rfl | hlt
      · exact hnone token
      · exact nothing j token hlt
  | token le nothing stands lexed =>
      refine .token (by omega) (fun j token hj hjs => ?_) stands lexed
      rcases Nat.eq_or_lt_of_le hj with rfl | hlt
      · exact hnone token
      · exact nothing j token hlt hjs

/-- Every input has tokens from every offset on. -/
theorem exists_lexed (L : Lexicon β φ) (input : List β) (offset : ℕ) :
    ∃ tokens, Lexed L input offset tokens := by
  obtain ⟨n, hn⟩ : ∃ n, n = input.length - offset := ⟨_, rfl⟩
  induction n using Nat.strong_induction_on generalizing offset with
  | _ n ih =>
      by_cases hstands : ∃ token, L.StandsAt input offset token
      · obtain ⟨token, hstands⟩ := hstands
        have hle := hstands.le
        have hpos := L.length_pos token
        obtain ⟨rest, hrest⟩ := ih _ (by omega) (offset + (L.bytes token).length) rfl
        exact ⟨_, .token le_rfl (fun j _ hj hlt => absurd hj (by omega)) hstands hrest⟩
      · have hnone : ∀ token, ¬ L.StandsAt input offset token := fun token h => hstands ⟨token, h⟩
        rcases Nat.lt_or_ge offset input.length with hlt | hge
        · obtain ⟨tokens, htokens⟩ := ih _ (by omega) (offset + 1) rfl
          exact ⟨tokens, htokens.skip hnone⟩
        · refine ⟨[], .done fun j token hj hstands => ?_⟩
          have hle := hstands.le
          have hpos := L.length_pos token
          omega

theorem standsAt (h : Lexed L input offset tokens) :
    ∀ entry ∈ tokens, L.StandsAt input entry.1 entry.2 := by
  induction h with
  | done => simp
  | token _ _ stands _ ih => exact List.forall_mem_cons.2 ⟨stands, ih⟩

theorem le (h : Lexed L input offset tokens) : ∀ entry ∈ tokens, offset ≤ entry.1 := by
  induction h with
  | done => simp
  | token le _ _ _ ih =>
      exact List.forall_mem_cons.2 ⟨le, fun entry hentry => by have hle := ih entry hentry; omega⟩

/-- **The tokens are ordered and do not overlap.** -/
theorem ordered (h : Lexed L input offset tokens) :
    tokens.Pairwise fun first second => first.1 + (L.bytes first.2).length ≤ second.1 := by
  induction h with
  | done => exact List.Pairwise.nil
  | token _ _ _ lexed ih => exact List.Pairwise.cons lexed.le ih

/-- **Outside of the tokens there is none.** -/
theorem not_standsAt (h : Lexed L input offset tokens) {j : ℕ} (hj : offset ≤ j)
    (hout : ∀ entry ∈ tokens, ¬ (entry.1 ≤ j ∧ j < entry.1 + (L.bytes entry.2).length))
    (token : φ) : ¬ L.StandsAt input j token := by
  induction h with
  | done nothing => exact nothing j token hj
  | @token offset start token' rest _ nothing _ _ ih =>
      obtain ⟨hfirst, hrest⟩ := List.forall_mem_cons.1 hout
      rcases Nat.lt_or_ge j start with hlt | hge
      · exact nothing j token hj hlt
      · exact ih (by simp only at hfirst; omega) hrest

/-- **Where a token stands, one was lexed**, when every token is marked by its first byte. -/
theorem exists_mem_of_standsAt {mark : β} (hmark : L.Marked mark) (h : Lexed L input offset tokens)
    {j : ℕ} {token : φ} (hj : offset ≤ j) (hstands : L.StandsAt input j token) :
    ∃ inner, (j, inner) ∈ tokens := by
  by_contra hnone
  refine h.not_standsAt hj (fun entry hentry ⟨hle, hlt⟩ => ?_) token hstands
  obtain ⟨start, outer⟩ := entry
  simp only at hle hlt
  rcases Nat.eq_or_lt_of_le hle with rfl | hinside
  · exact hnone ⟨outer, hentry⟩
  · -- the mark of the token would be a later byte of the one around it
    obtain ⟨tail, htail, hnot⟩ := hmark outer
    obtain ⟨tail', htail', -⟩ := hmark token
    obtain ⟨rest, hrest⟩ := h.standsAt _ hentry
    obtain ⟨rest', hrest'⟩ := hstands
    obtain ⟨k, rfl⟩ : ∃ k, j = start + (k + 1) := ⟨j - start - 1, by omega⟩
    rw [htail, List.length_cons] at hlt
    have hat : tail[k]? = some mark := by
      have hfirst : (input.drop (start + (k + 1)))[0]? = some mark := by
        rw [← hrest', htail']
        rfl
      rw [← List.drop_drop, ← hrest, htail, List.cons_append, List.drop_succ_cons,
        List.getElem?_drop, Nat.add_zero, List.getElem?_append_left (by omega)] at hfirst
      exact hfirst
    exact hnot (List.mem_of_getElem? hat)

/-- The bytes of one token are that token, and nothing else. -/
theorem single (token : φ) : Lexed L (L.bytes token) 0 [(0, token)] := by
  refine .token le_rfl (fun j _ _ hlt => absurd hlt (Nat.not_lt_zero j)) List.prefix_rfl
    (.done fun j token' hj hstands => ?_)
  have hle := hstands.le
  have hpos := L.length_pos token'
  omega

/-! ### Beginnings -/

/-- A token that stands in the whole, but not in the beginning, leaves no room for another one
behind it in the beginning. -/
theorem not_standsAt_of_cut (hsep : L.Separate) {more : List β} {j k : ℕ} {outer inner : φ}
    (houter : L.StandsAt (input ++ more) j outer) (hcut : ¬ L.StandsAt input j outer)
    (hlt : j < k) : ¬ L.StandsAt input k inner := by
  intro hinner
  have hle := hinner.le
  have hpos := L.length_pos inner
  obtain ⟨tail, htail⟩ := hinner
  unfold StandsAt at houter hcut
  rw [List.drop_append_of_le_length (by omega)] at houter
  -- the rest of the beginning is shorter than the token that is cut off
  rcases List.prefix_or_prefix_of_prefix houter (List.prefix_append _ _) with hpre | hpre
  · exact hcut hpre
  · obtain ⟨after, hafter⟩ := hpre
    have hsplit : input.drop j = (input.drop j).take (k - j) ++ (L.bytes inner ++ tail) := by
      rw [htail, ← show j + (k - j) = k by omega, ← List.drop_drop, Nat.add_sub_cancel_left,
        List.take_append_drop]
    have hbefore : (input.drop j).take (k - j) = [] := by
      refine hsep outer inner _ (tail ++ after) ?_
      calc L.bytes outer = input.drop j ++ after := hafter.symm
        _ = (input.drop j).take (k - j) ++ (L.bytes inner ++ tail) ++ after :=
          congrArg (· ++ after) hsplit
        _ = (input.drop j).take (k - j) ++ L.bytes inner ++ (tail ++ after) := by
          simp only [List.append_assoc]
    have hlen := congrArg List.length hbefore
    rw [List.length_take, List.length_drop, List.length_nil] at hlen
    omega

/-- **The tokens of a beginning are the first tokens of the whole.** -/
theorem append (hsep : L.Separate) (h : Lexed L input offset tokens) (more : List β) :
    ∃ rest, Lexed L (input ++ more) offset (tokens ++ rest) := by
  induction h with
  | @done offset _ => exact exists_lexed L (input ++ more) offset
  | @token offset start token rest le nothing stands _ ih =>
      obtain ⟨rest', hrest'⟩ := ih
      refine ⟨rest', .token le (fun j token' hj hlt hstands => ?_) (stands.append more) hrest'⟩
      exact not_standsAt_of_cut hsep hstands (nothing j token' hj hlt) hlt stands

end Lexed

/-! ### The loop -/

/-- A recognizer recognizes a lexicon: it finds an item exactly where a token stands, and continues
behind the token. -/
def Recognizes (R : ScanLoop.Recognizer σ α) (L : Lexicon β φ) (input : List β)
    (item : σ → ℕ → φ → α) : Prop :=
  ∀ s offset hit, R.find s offset = some hit ↔
    ∃ token, L.StandsAt input offset token ∧
      hit = (item s offset token, offset + (L.bytes token).length)

/-- The items of lexed tokens. -/
def items (item : σ → ℕ → φ → α) (succ : σ → σ) : σ → List (ℕ × φ) → List α
  | _, [] => []
  | s, (offset, token) :: rest => item s offset token :: items item succ (succ s) rest

section Items

variable {item : σ → ℕ → φ → α} {succ : σ → σ}

theorem length_items (s : σ) (tokens : List (ℕ × φ)) :
    (items item succ s tokens).length = tokens.length := by
  induction tokens generalizing s with
  | nil => rfl
  | cons entry rest ih => exact congrArg (· + 1) (ih (succ s))

theorem getElem?_items (s : σ) (tokens : List (ℕ × φ)) (k : ℕ) :
    (items item succ s tokens)[k]? =
      tokens[k]?.map fun entry => item (succ^[k] s) entry.1 entry.2 := by
  induction tokens generalizing s k with
  | nil => rfl
  | cons entry rest ih =>
      cases k with
      | zero => rfl
      | succ k => exact ih (succ s) k

/-- The items of first tokens are the first items. -/
theorem items_prefix_append (s : σ) (tokens rest : List (ℕ × φ)) :
    items item succ s tokens <+: items item succ s (tokens ++ rest) := by
  induction tokens generalizing s with
  | nil => exact List.nil_prefix
  | cons entry tokens ih => exact List.cons_prefix_cons.2 ⟨rfl, ih (succ s)⟩

/-- The first item that passes a test is that of the first token that does. -/
theorem find?_items_iff {test : α → Bool} {P : φ → Prop}
    (htest : ∀ s offset token, test (item s offset token) = true ↔ P token) {s : σ}
    {tokens : List (ℕ × φ)} {found : α} :
    (items item succ s tokens).find? test = some found ↔
      ∃ before entry after, tokens = before ++ entry :: after ∧
        (∀ earlier ∈ before, ¬ P earlier.2) ∧
        P entry.2 ∧ found = item (succ^[before.length] s) entry.1 entry.2 := by
  induction tokens generalizing s with
  | nil => simp [items]
  | cons entry tokens ih =>
      obtain ⟨offset, token⟩ := entry
      rw [items, List.find?_cons]
      by_cases hp : P token
      · rw [(htest s offset token).2 hp]
        constructor
        · intro h
          exact ⟨[], (offset, token), tokens, rfl, by simp, hp, (Option.some.inj h).symm⟩
        · rintro ⟨before, entry, after, heq, hbefore, -, rfl⟩
          cases before with
          | nil =>
              obtain ⟨rfl, rfl⟩ := List.cons.inj heq
              rfl
          | cons entry' before =>
              obtain ⟨rfl, rfl⟩ := List.cons.inj heq
              exact absurd hp (hbefore _ List.mem_cons_self)
      · rw [Bool.eq_false_iff.2 (mt (htest s offset token).1 hp)]
        refine ih.trans ⟨?_, ?_⟩
        · rintro ⟨before, entry, after, rfl, hbefore, hentry, rfl⟩
          exact ⟨(offset, token) :: before, entry, after, rfl, List.forall_mem_cons.2 ⟨hp, hbefore⟩,
            hentry, rfl⟩
        · rintro ⟨before, entry, after, heq, hbefore, hentry, rfl⟩
          cases before with
          | nil =>
              obtain ⟨rfl, rfl⟩ := List.cons.inj heq
              exact absurd hentry hp
          | cons entry' before =>
              obtain ⟨rfl, rfl⟩ := List.cons.inj heq
              exact ⟨before, entry, after, rfl, (List.forall_mem_cons.1 hbefore).2, hentry, rfl⟩

/-- Of the tokens of an input, one stands before another when it comes earlier. -/
theorem Lexed.lt_of_mem {input : List β} {offset : ℕ} {before after : List (ℕ × φ)}
    {first second : ℕ × φ} (h : Lexed L input offset (before ++ first :: after))
    (hsecond : second ∈ after) : first.1 < second.1 := by
  have hordered := (List.pairwise_append.1 h.ordered).2.1
  have hle := (List.pairwise_cons.1 hordered).1 second hsecond
  have hpos := L.length_pos first.2
  omega

/-- **A token before the first one of some kind**: there is none of that kind before it, and there
is one behind it. -/
theorem Lexed.first_after_iff {input : List β} {offset : ℕ} {before after : List (ℕ × φ)}
    {entry : ℕ × φ} (h : Lexed L input offset (before ++ entry :: after)) {P : φ → Prop}
    (hentry : ¬ P entry.2) :
    (∃ before' other after', before ++ entry :: after = before' ++ other :: after' ∧
      (∀ earlier ∈ before', ¬ P earlier.2) ∧ P other.2 ∧ entry.1 < other.1) ↔
      (∀ earlier ∈ before, ¬ P earlier.2) ∧ ∃ other ∈ after, P other.2 := by
  constructor
  · rintro ⟨before', other, after', heq, hbefore', hother, hlt⟩
    rcases List.append_eq_append_iff.1 heq with ⟨c, rfl, hc⟩ | ⟨c, rfl, hc⟩
    · refine ⟨fun earlier hmem => hbefore' earlier (List.mem_append_left _ hmem), ?_⟩
      cases c with
      | nil =>
          obtain ⟨rfl, -⟩ := List.cons.inj hc
          exact absurd hother hentry
      | cons entry' c =>
          obtain ⟨rfl, rfl⟩ := List.cons.inj hc
          exact ⟨other, by simp, hother⟩
    · cases c with
      | nil =>
          obtain ⟨rfl, -⟩ := List.cons.inj hc
          exact absurd hother hentry
      | cons other' c =>
          obtain ⟨rfl, rfl⟩ := List.cons.inj hc
          rw [List.append_assoc, List.cons_append] at h
          have hgt := h.lt_of_mem (List.mem_append_right c List.mem_cons_self)
          omega
  · rintro ⟨hbefore, other, hmem, hother⟩
    classical
    have hsome : (after.find? fun entry => decide (P entry.2)).isSome :=
      List.find?_isSome.2 ⟨other, hmem, decide_eq_true hother⟩
    obtain ⟨first, hfirst⟩ := Option.isSome_iff_exists.1 hsome
    obtain ⟨hp, between, rest, rfl, hbetween⟩ := List.find?_eq_some_iff_append.1 hfirst
    refine ⟨before ++ entry :: between, first, rest, by simp, ?_, of_decide_eq_true hp,
      h.lt_of_mem (by simp)⟩
    intro earlier hearlier
    obtain hearlier | hearlier := List.mem_append.1 hearlier
    · exact hbefore earlier hearlier
    obtain rfl | hearlier := List.mem_cons.1 hearlier
    · exact hentry
    · have hnot := hbetween earlier hearlier
      simpa using hnot

variable {R : ScanLoop.Recognizer σ α}

theorem Recognizes.find_eq_none (hR : Recognizes R L input item) {s : σ} {offset : ℕ} :
    R.find s offset = none ↔ ∀ token, ¬ L.StandsAt input offset token := by
  rw [Option.eq_none_iff_forall_ne_some]
  constructor
  · intro h token hstands
    exact h _ ((hR s offset _).2 ⟨token, hstands, rfl⟩)
  · intro h hit hhit
    obtain ⟨token, hstands, -⟩ := (hR s offset hit).1 hhit
    exact h token hstands

/-- **The loop records the tokens.** -/
theorem scanFrom_of_lexed (hR : Recognizes R L input item) {offset : ℕ}
    {tokens : List (ℕ × φ)} (h : Lexed L input offset tokens) (s : σ) :
    ScanLoop.scanFrom R succ input.length s offset = items item succ s tokens := by
  induction h generalizing s with
  | @done offset nothing =>
      rw [ScanLoop.scanFrom_skip (input.length - offset) fun j _ =>
        hR.find_eq_none.2 fun token => nothing _ token (by omega)]
      exact ScanLoop.scanFrom_of_le (by omega)
  | @token offset start token rest le nothing stands _ ih =>
      have hend := stands.le
      have hpos := L.length_pos token
      have hskip : ScanLoop.scanFrom R succ input.length s offset =
          ScanLoop.scanFrom R succ input.length s (offset + (start - offset)) :=
        ScanLoop.scanFrom_skip (start - offset) fun j hj =>
          hR.find_eq_none.2 fun token' => nothing (offset + j) token' (by omega) (by omega)
      rw [hskip, show offset + (start - offset) = start by omega,
        ScanLoop.scanFrom_hit (by omega) ((hR s start _).2 ⟨token, stands, rfl⟩), ih]
      rfl

/-- What the loop records in an input is the items of its tokens. -/
theorem exists_scan_eq (hR : Recognizes R L input item) (s : σ) :
    ∃ tokens, Lexed L input 0 tokens ∧
      ScanLoop.scan R succ input.length s = items item succ s tokens := by
  obtain ⟨tokens, htokens⟩ := Lexed.exists_lexed L input 0
  exact ⟨tokens, htokens, scanFrom_of_lexed hR htokens s⟩

/-- The items of tokens do not depend on a state that is not there. -/
theorem items_unit {item : Unit → ℕ → φ → α} (tokens : List (ℕ × φ)) :
    items item id () tokens = tokens.map fun entry => item () entry.1 entry.2 := by
  induction tokens with
  | nil => rfl
  | cons entry tokens ih => exact congrArg _ ih

/-- **The loop records what stands anywhere**, when every token is marked by its first byte. -/
theorem mem_scan_iff {mark : β} (hmark : L.Marked mark) {R : ScanLoop.Recognizer Unit α}
    {item : Unit → ℕ → φ → α} (hR : Recognizes R L input item) {a : α} :
    a ∈ ScanLoop.scan R id input.length () ↔
      ∃ offset token, L.StandsAt input offset token ∧ a = item () offset token := by
  obtain ⟨tokens, htokens, hscan⟩ : ∃ tokens, Lexed L input 0 tokens ∧
      ScanLoop.scan R id input.length () = items item id () tokens := exists_scan_eq hR ()
  rw [hscan, items_unit, List.mem_map]
  constructor
  · rintro ⟨entry, hentry, rfl⟩
    exact ⟨entry.1, entry.2, htokens.standsAt entry hentry, rfl⟩
  · rintro ⟨offset, token, hstands, rfl⟩
    obtain ⟨inner, hinner⟩ := htokens.exists_mem_of_standsAt hmark (Nat.zero_le offset) hstands
    have hfound := (hR () offset _).2 ⟨token, hstands, rfl⟩
    rw [(hR () offset _).2 ⟨inner, htokens.standsAt _ hinner, rfl⟩] at hfound
    exact ⟨_, hinner, (Prod.mk.inj (Option.some.inj hfound)).1⟩

/-- **The loop records the tokens in order.** -/
theorem pairwise_scan {R : ScanLoop.Recognizer Unit α} {item : Unit → ℕ → φ → α}
    (hR : Recognizes R L input item) (position : α → ℕ)
    (hposition : ∀ offset token, position (item () offset token) = offset) :
    (ScanLoop.scan R id input.length ()).Pairwise fun a b => position a < position b := by
  obtain ⟨tokens, htokens, hscan⟩ : ∃ tokens, Lexed L input 0 tokens ∧
      ScanLoop.scan R id input.length () = items item id () tokens := exists_scan_eq hR ()
  rw [hscan, items_unit, List.pairwise_map]
  refine htokens.ordered.imp fun {first second} hle => ?_
  have hpos := L.length_pos first.2
  rw [hposition, hposition]
  omega

/-- **Scanning is stable under extension** where no token lies strictly inside another one. -/
theorem scan_append (hsep : L.Separate) {more : List β} {R' : ScanLoop.Recognizer σ α}
    (hR : Recognizes R L input item) (hR' : Recognizes R' L (input ++ more) item) (s : σ) :
    ScanLoop.scan R succ input.length s <+:
      ScanLoop.scan R' succ (input ++ more).length s := by
  obtain ⟨tokens, htokens, hscan⟩ : ∃ tokens, Lexed L input 0 tokens ∧
      ScanLoop.scan R succ input.length s = items item succ s tokens := exists_scan_eq hR s
  obtain ⟨rest, hrest⟩ := htokens.append hsep more
  rw [hscan, ScanLoop.scan, scanFrom_of_lexed hR' hrest s]
  exact items_prefix_append s tokens rest

end Items

end Lexing

/-! ### Texts in which nothing begins -/

namespace Heads

variable {α β : Type*} {heads : List (List α)} {xs ys : List α}

/-- Two sequences agree as far as both go. -/
def Agree (xs ys : List α) : Prop := xs <+: ys ∨ ys <+: xs

instance [DecidableEq α] : DecidableRel (@Agree α) :=
  fun xs ys => inferInstanceAs (Decidable (xs <+: ys ∨ ys <+: xs))

/-- No head begins in a text. -/
inductive Free (heads : List (List α)) : List α → Prop
  | nil : Free heads []
  | cons {x : α} {xs : List α} :
      (∀ head ∈ heads, ¬ Agree head (x :: xs)) → Free heads xs → Free heads (x :: xs)

theorem free_cons_iff {x : α} :
    Free heads (x :: xs) ↔ (∀ head ∈ heads, ¬ Agree head (x :: xs)) ∧ Free heads xs := by
  constructor
  · intro h
    cases h with
    | cons hheads hxs => exact ⟨hheads, hxs⟩
  · rintro ⟨hheads, hxs⟩
    exact Free.cons hheads hxs

instance decidableFree [DecidableEq α] (heads : List (List α)) :
    (xs : List α) → Decidable (Free heads xs)
  | [] => isTrue Free.nil
  | _ :: xs =>
      have := decidableFree heads xs
      decidable_of_iff _ free_cons_iff.symm

/-- What agrees with a text agrees with its beginning. -/
theorem Agree.of_append {head : List α} (h : Agree head (xs ++ ys)) : Agree head xs := by
  rcases h with h | h
  · exact List.prefix_or_prefix_of_prefix h (List.prefix_append xs ys)
  · exact Or.inr ((List.prefix_append xs ys).trans h)

theorem agree_cons_iff {x y : α} : Agree (x :: xs) (y :: ys) ↔ x = y ∧ Agree xs ys := by
  simp only [Agree, List.cons_prefix_cons, eq_comm (a := y), and_or_left]

/-- Two sequences that each have an item of their own do not agree. -/
theorem not_agree_of_mem {x y : α} (hx : x ∈ xs) (hx' : x ∉ ys) (hy : y ∈ ys) (hy' : y ∉ xs) :
    ¬ Agree xs ys := by
  rintro (h | h)
  · exact hx' (h.subset hx)
  · exact hy' (h.subset hy)

/-- **Free texts can be put together.** -/
theorem free_append (hx : Free heads xs) (hy : Free heads ys) : Free heads (xs ++ ys) := by
  induction hx with
  | nil => exact hy
  | cons hheads _ ih =>
      exact Free.cons (fun head hmem hagree => hheads head hmem hagree.of_append) ih

theorem free_flatMap {items : List β} {f : β → List α} (h : ∀ item ∈ items, Free heads (f item)) :
    Free heads (items.flatMap f) := by
  induction items with
  | nil => exact Free.nil
  | cons item items ih =>
      rw [List.flatMap_cons]
      obtain ⟨hitem, hitems⟩ := List.forall_mem_cons.1 h
      exact free_append hitem (ih hitems)

theorem free_flatten {lists : List (List α)} (h : ∀ list ∈ lists, Free heads list) :
    Free heads lists.flatten := by
  rw [← List.flatMap_id]
  exact free_flatMap h

/-- **A text without the mark is free** when every head begins with the mark. -/
theorem free_of_notMem {mark : α} (hheads : ∀ head ∈ heads, head.head? = some mark)
    (h : mark ∉ xs) : Free heads xs := by
  induction xs with
  | nil => exact Free.nil
  | cons x xs ih =>
      rw [List.mem_cons, not_or] at h
      refine Free.cons (fun head hmem hagree => ?_) (ih h.2)
      have hhead := hheads head hmem
      cases head with
      | nil => cases hhead
      | cons y head =>
          obtain rfl : y = mark := Option.some_inj.1 hhead
          rcases hagree with hagree | hagree
          · exact h.1 (List.cons_prefix_cons.1 hagree).1
          · exact h.1 (List.cons_prefix_cons.1 hagree).1.symm

/-- **No head lies in a free text.** -/
theorem not_infix_of_free {head : List α} (h : Free heads xs) (hmem : head ∈ heads)
    (hne : head ≠ []) : ¬ head <:+: xs := by
  intro hinfix
  induction h with
  | nil => exact hne (List.infix_nil.1 hinfix)
  | cons hheads _ ih =>
      rcases List.infix_cons_iff.1 hinfix with hprefix | hinfix
      · exact hheads head hmem (Or.inl hprefix)
      · exact ih hinfix

end Heads
