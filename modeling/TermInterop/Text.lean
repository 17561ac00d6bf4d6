/-
Text as a program sees it: UTF-8 bytes, decimal numbers, separators and lines.

The functions below follow the documented behaviour of the string operations of the Rust standard
library.  Each is defined on the characters of a string, so that it can be evaluated, and comes
with the one lemma by which it is used afterwards.

Main definitions:

* `Text.asBytes` — the UTF-8 bytes of a string;
* `Text.stripPrefix`, `Text.splitOnce`, `Text.lines` — prefixes, separators and line endings;
* `Text.parseUnsigned` — a bounded decimal number;
* `Text.isControl` — the control characters of Unicode.

Main results:

* `Text.forall_mem_asBytes_iff` — a property of ASCII bytes is a property of characters;
* `Text.stripPrefix_eq_some_iff` — a prefix is stripped exactly when it is there;
* `Text.parseUnsigned_repr` — a printed number is read back.
-/

import Mathlib

set_option relaxedAutoImplicit false
set_option autoImplicit false

namespace Text

/-! ### UTF-8 bytes -/

/-- The UTF-8 bytes of a list of characters. -/
def utf8 (cs : List Char) : List UInt8 := cs.flatMap String.utf8EncodeChar

/-- The UTF-8 bytes of a string. -/
def asBytes (s : String) : List UInt8 := utf8 s.toList

/-- The byte of an ASCII character. -/
def asciiByte (c : Char) : UInt8 := UInt8.ofNat c.toNat

@[simp] theorem utf8_nil : utf8 [] = [] := rfl

@[simp] theorem utf8_cons (c : Char) (cs : List Char) :
    utf8 (c :: cs) = String.utf8EncodeChar c ++ utf8 cs := rfl

@[simp] theorem utf8_append (cs ds : List Char) : utf8 (cs ++ ds) = utf8 cs ++ utf8 ds := by
  simp [utf8]

@[simp] theorem asBytes_append (s t : String) : asBytes (s ++ t) = asBytes s ++ asBytes t := by
  simp [asBytes]

theorem utf8EncodeChar_of_ascii {c : Char} (h : c.toNat < 128) :
    String.utf8EncodeChar c = [asciiByte c] := by
  have hle : c.val.toNat ≤ 0x7f := Nat.le_of_lt_succ h
  simp only [String.utf8EncodeChar, if_pos hle, asciiByte]
  rfl

/-- Every byte of a character outside ASCII has its highest bit set. -/
theorem le_of_mem_utf8EncodeChar {c : Char} (h : 128 ≤ c.toNat) {b : UInt8}
    (hb : b ∈ String.utf8EncodeChar c) : 128 ≤ b.toNat := by
  have hgt : ¬ c.val.toNat ≤ 0x7f := Nat.not_le.2 h
  simp only [String.utf8EncodeChar, if_neg hgt] at hb
  split_ifs at hb <;> simp only [List.mem_cons, List.not_mem_nil, or_false] at hb <;>
    rcases hb with rfl | rfl | rfl | rfl <;> simp only [UInt8.toNat_ofNat'] <;> omega

/-- The bytes of ASCII text are its characters. -/
theorem utf8_of_ascii {cs : List Char} (h : ∀ c ∈ cs, c.toNat < 128) :
    utf8 cs = cs.map asciiByte := by
  induction cs with
  | nil => rfl
  | cons c cs ih =>
      rw [utf8_cons, utf8EncodeChar_of_ascii (h c List.mem_cons_self),
        ih fun d hd => h d (List.mem_cons_of_mem c hd)]
      rfl

/-- **A property of ASCII bytes is a property of characters**: a set of ASCII bytes contains the
bytes of a text exactly when the text is ASCII and the set contains its characters. -/
theorem forall_mem_utf8_iff {P : UInt8 → Prop} (hP : ∀ b, P b → b.toNat < 128) (cs : List Char) :
    (∀ b ∈ utf8 cs, P b) ↔ ∀ c ∈ cs, c.toNat < 128 ∧ P (asciiByte c) := by
  induction cs with
  | nil => simp
  | cons c cs ih =>
      rw [utf8_cons, List.forall_mem_append, ih, List.forall_mem_cons]
      refine and_congr_left fun _ => ?_
      by_cases hc : c.toNat < 128
      · simp [utf8EncodeChar_of_ascii hc, hc]
      · have hge : 128 ≤ c.toNat := Nat.le_of_not_lt hc
        obtain ⟨b, hb⟩ := List.exists_mem_of_ne_nil _ (String.utf8EncodeChar_ne_nil (c := c))
        have hbig := le_of_mem_utf8EncodeChar hge hb
        exact ⟨fun h => absurd (hP b (h b hb)) (Nat.not_lt.2 hbig), fun h => absurd h.1 hc⟩

/-- The same for the bytes of a string. -/
theorem forall_mem_asBytes_iff {P : UInt8 → Prop} (hP : ∀ b, P b → b.toNat < 128) (s : String) :
    (∀ b ∈ asBytes s, P b) ↔ ∀ c ∈ s.toList, c.toNat < 128 ∧ P (asciiByte c) :=
  forall_mem_utf8_iff hP s.toList

/-- An ASCII byte of an encoded text is one of its characters. -/
theorem exists_of_mem_utf8 {b : UInt8} (hb : b.toNat < 128) {cs : List Char} (h : b ∈ utf8 cs) :
    ∃ c ∈ cs, c.toNat = b.toNat := by
  obtain ⟨c, hc, hmem⟩ := List.mem_flatMap.1 h
  refine ⟨c, hc, ?_⟩
  by_cases hascii : c.toNat < 128
  · rw [utf8EncodeChar_of_ascii hascii, List.mem_singleton] at hmem
    rw [hmem, asciiByte, UInt8.toNat_ofNat', Nat.mod_eq_of_lt (by omega)]
  · have hbig := le_of_mem_utf8EncodeChar (Nat.le_of_not_lt hascii) hmem
    omega

/-- A text is at most as long as its UTF-8 encoding, with equality for ASCII. -/
theorem length_asBytes_of_ascii {s : String} (h : ∀ c ∈ s.toList, c.toNat < 128) :
    (asBytes s).length = s.toList.length := by
  rw [asBytes, utf8_of_ascii h, List.length_map]

/-- The bytes of ASCII text determine it. -/
theorem asBytes_injective_of_ascii {s t : String} (hs : ∀ c ∈ s.toList, c.toNat < 128)
    (ht : ∀ c ∈ t.toList, c.toNat < 128) (h : asBytes s = asBytes t) : s = t := by
  rw [asBytes, asBytes, utf8_of_ascii hs, utf8_of_ascii ht] at h
  -- a byte below 128 is the number of its character
  have hback : ∀ cs : List Char, (∀ c ∈ cs, c.toNat < 128) →
      (cs.map asciiByte).map (fun b => Char.ofNat b.toNat) = cs := by
    intro cs hcs
    rw [List.map_map]
    refine (List.map_congr_left fun c hc => ?_).trans (List.map_id cs)
    have hlt := hcs c hc
    rw [Function.comp_apply, asciiByte, UInt8.toNat_ofNat', Nat.mod_eq_of_lt (by omega),
      Char.ofNat_toNat, id]
  rw [← String.toList_inj, ← hback _ hs, h, hback _ ht]

/-! ### Prefixes and separators -/

/-- The rest of a string after a prefix, when the prefix is there. -/
def stripPrefix (pre s : String) : Option String :=
  if pre.toList <+: s.toList then some (String.ofList (s.toList.drop pre.toList.length)) else none

/-- **A prefix is stripped exactly when it is there.** -/
theorem stripPrefix_eq_some_iff {pre s t : String} : stripPrefix pre s = some t ↔ s = pre ++ t := by
  rw [stripPrefix]
  constructor
  · intro h
    split at h
    · rename_i hpre
      obtain ⟨rest, hrest⟩ := hpre
      rw [← hrest, List.drop_left] at h
      obtain rfl := Option.some_inj.1 h
      rw [← String.toList_inj]
      simpa using hrest.symm
    · cases h
  · rintro rfl
    simp

theorem stripPrefix_eq_none_iff {pre s : String} :
    stripPrefix pre s = none ↔ ¬ pre.toList <+: s.toList := by
  rw [stripPrefix]
  split <;> simp_all

/-- The two parts of a text around the first separator. -/
def splitOnce {α : Type*} [DecidableEq α] (sep : α) : List α → Option (List α × List α)
  | [] => none
  | x :: xs =>
      if x = sep then some ([], xs)
      else (splitOnce sep xs).map fun parts => (x :: parts.1, parts.2)

section SplitOnce

variable {α : Type*} [DecidableEq α] {sep : α}

/-- A text splits where its first separator stands. -/
theorem splitOnce_eq_some_iff {xs l r : List α} :
    splitOnce sep xs = some (l, r) ↔ xs = l ++ sep :: r ∧ sep ∉ l := by
  induction xs generalizing l with
  | nil => simp [splitOnce]
  | cons x xs ih =>
      by_cases hx : x = sep
      · subst hx
        cases l with
        | nil => simp [splitOnce, eq_comm]
        | cons y l => simpa [splitOnce] using fun h _ hne => absurd h hne
      · have hstep : splitOnce sep (x :: xs) =
            (splitOnce sep xs).map fun parts => (x :: parts.1, parts.2) := if_neg hx
        rw [hstep]
        cases l with
        | nil => simp [hx]
        | cons y l =>
            simp only [Option.map_eq_some_iff, Prod.mk.injEq, List.cons.injEq, Prod.exists,
              List.cons_append, List.mem_cons, not_or]
            constructor
            · rintro ⟨l', r', h, ⟨rfl, rfl⟩, rfl⟩
              obtain ⟨hxs, hl⟩ := ih.1 h
              exact ⟨⟨rfl, hxs⟩, Ne.symm hx, hl⟩
            · rintro ⟨⟨rfl, hxs⟩, -, hl⟩
              exact ⟨l, r, ih.2 ⟨hxs, hl⟩, ⟨rfl, rfl⟩, rfl⟩

theorem splitOnce_eq_none_iff {xs : List α} : splitOnce sep xs = none ↔ sep ∉ xs := by
  induction xs with
  | nil => simp [splitOnce]
  | cons x xs ih =>
      by_cases hx : x = sep
      · simp [splitOnce, hx]
      · simp [splitOnce, hx, ih, Ne.symm hx]

/-- A text has two segments exactly when it has one separator. -/
theorem splitOn_eq_pair_iff {xs l r : List α} :
    xs.splitOn sep = [l, r] ↔ xs = l ++ sep :: r ∧ sep ∉ l ∧ sep ∉ r := by
  constructor
  · intro h
    cases hsplit : splitOnce sep xs with
    | none =>
        rw [List.splitOn_eq_singleton (splitOnce_eq_none_iff.1 hsplit)] at h
        cases h
    | some parts =>
        obtain ⟨l', rest⟩ := parts
        obtain ⟨rfl, hl⟩ := splitOnce_eq_some_iff.1 hsplit
        rw [List.splitOn_append_cons_self_of_not_mem hl] at h
        obtain ⟨rfl, hrest⟩ := List.cons.inj h
        -- what follows the first separator is one segment, so it holds no other
        cases hsplit' : splitOnce sep rest with
        | none =>
            rw [List.splitOn_eq_singleton (splitOnce_eq_none_iff.1 hsplit')] at hrest
            obtain ⟨rfl, -⟩ := List.cons.inj hrest
            exact ⟨rfl, hl, splitOnce_eq_none_iff.1 hsplit'⟩
        | some parts =>
            obtain ⟨m, rest'⟩ := parts
            obtain ⟨rfl, hm⟩ := splitOnce_eq_some_iff.1 hsplit'
            rw [List.splitOn_append_cons_self_of_not_mem hm] at hrest
            obtain ⟨-, hnil⟩ := List.cons.inj hrest
            exact absurd hnil (List.splitOn_ne_nil sep rest')
  · intro h
    obtain ⟨rfl, hl, hr⟩ := h
    rw [List.splitOn_append_cons_self_of_not_mem hl, List.splitOn_eq_singleton hr]

end SplitOnce

/-! ### What follows what -/

/-- Every `x` of a list is followed by a `y`. -/
def FollowedBy {α : Type*} (x y : α) : List α → Prop
  | [] => True
  | a :: as => (a = x → as.head? = some y) ∧ FollowedBy x y as

section FollowedBy

variable {α : Type*} {x y : α} {as bs : List α}

theorem followedBy_append_of_notMem (h : x ∉ as) :
    FollowedBy x y (as ++ bs) ↔ FollowedBy x y bs := by
  induction as with
  | nil => rfl
  | cons a as ih =>
      simp only [List.mem_cons, not_or] at h
      simp [FollowedBy, ih h.2, Ne.symm h.1]

/-- Without a `y` there is no `x` either. -/
theorem followedBy_append_of_head_ne (has : y ∉ as) (hbs : bs.head? ≠ some y) :
    FollowedBy x y (as ++ bs) ↔ x ∉ as ∧ FollowedBy x y bs := by
  induction as with
  | nil => simp
  | cons a as ih =>
      simp only [List.mem_cons, not_or] at has
      -- what comes next is no `y`, so this is no `x`
      have hnext : (as ++ bs).head? ≠ some y := by
        cases as with
        | nil => exact hbs
        | cons b as =>
            intro h
            exact has.2 (Option.some_inj.1 h ▸ List.mem_cons_self)
      rw [List.cons_append, FollowedBy, ih has.2, List.mem_cons, not_or, and_assoc]
      refine and_congr_left fun _ => ?_
      constructor
      · intro ha hxa
        exact hnext (ha hxa.symm)
      · intro hxa ha
        exact absurd ha.symm hxa

theorem followedBy_of_notMem (h : y ∉ as) : FollowedBy x y as ↔ x ∉ as := by
  have happend := @followedBy_append_of_head_ne α x y as [] h (by simp)
  simpa [FollowedBy] using happend

/-- Only the first element of what is appended matters. -/
theorem followedBy_append_cons_iff {b : α} (h : x ∉ b :: bs) :
    FollowedBy x y (as ++ b :: bs) ↔ FollowedBy x y (as ++ [b]) := by
  induction as with
  | nil =>
      have hb : x ∉ [b] := fun hmem => h (List.mem_singleton.1 hmem ▸ List.mem_cons_self)
      have hwhole := @followedBy_append_of_notMem α x y _ [] h
      have hone := @followedBy_append_of_notMem α x y _ [] hb
      rw [List.append_nil] at hwhole hone
      rw [List.nil_append, List.nil_append, hwhole, hone]
  | cons a as ih =>
      have hhead : (as ++ b :: bs).head? = (as ++ [b]).head? := by
        cases as <;> rfl
      rw [List.cons_append, List.cons_append, FollowedBy, FollowedBy, ih, hhead]

/-- The same by positions. -/
theorem followedBy_iff_getElem? :
    FollowedBy x y as ↔ ∀ i, as[i]? = some x → as[i + 1]? = some y := by
  induction as with
  | nil => simp [FollowedBy]
  | cons a as ih =>
      rw [FollowedBy, ih]
      constructor
      · intro h i hi
        cases i with
        | zero =>
            have ha : a = x := by simpa using hi
            simpa [List.head?_eq_getElem?] using h.1 ha
        | succ i => simpa using h.2 i (by simpa using hi)
      · intro h
        refine ⟨fun ha => ?_, fun i hi => ?_⟩
        · simpa [List.head?_eq_getElem?] using h 0 (by simp [ha])
        · simpa using h (i + 1) (by simpa using hi)

end FollowedBy

/-- The elements of separated lists are those of the lists, and the separator. -/
theorem mem_of_mem_intercalate {α : Type*} {sep x : α} {lists : List (List α)}
    (h : x ∈ [sep].intercalate lists) : x = sep ∨ ∃ list ∈ lists, x ∈ list := by
  induction lists with
  | nil => simp [List.intercalate] at h
  | cons list lists ih =>
      cases lists with
      | nil =>
          rw [List.intercalate_singleton] at h
          exact Or.inr ⟨list, List.mem_cons_self, h⟩
      | cons list' lists =>
          rw [List.intercalate_cons_cons, List.append_assoc, List.mem_append,
            List.mem_append] at h
          rcases h with h | h | h
          · exact Or.inr ⟨list, List.mem_cons_self, h⟩
          · exact Or.inl (List.mem_singleton.1 h)
          · rcases ih h with rfl | ⟨list'', hmem, hx⟩
            · exact Or.inl rfl
            · exact Or.inr ⟨list'', List.mem_cons_of_mem _ hmem, hx⟩

/-- A separator takes one place less than there are pieces. -/
theorem length_intercalate_add_one {α : Type*} {pieces : List (List α)} (sep : α)
    (h : pieces ≠ []) :
    ([sep].intercalate pieces).length + 1 = (pieces.map List.length).sum + pieces.length := by
  induction pieces with
  | nil => exact absurd rfl h
  | cons piece pieces ih =>
      cases pieces with
      | nil => simp
      | cons next rest =>
          have hrest := ih (List.cons_ne_nil next rest)
          simp only [List.intercalate_cons_cons, List.length_append, List.map_cons, List.sum_cons,
            List.length_cons, List.length_nil] at hrest ⊢
          omega

/-- The pieces of a list are as long as the list without its separators. -/
theorem sum_length_splitOn {α : Type*} [DecidableEq α] (sep : α) (xs : List α) :
    ((xs.splitOn sep).map List.length).sum + (xs.splitOn sep).length = xs.length + 1 := by
  rw [← length_intercalate_add_one sep (List.splitOn_ne_nil _ _), List.intercalate_splitOn]

/-! ### Decimal numbers -/

/-- The digits of a number after its optional plus sign. -/
def dropPlus : List Char → List Char
  | '+' :: rest => rest
  | cs => cs

/-- An unsigned decimal number of at most `bound`: an optional plus sign and at least one digit. -/
def parseUnsigned (bound : ℕ) (s : List Char) : Option ℕ :=
  let digits := dropPlus s
  if digits ≠ [] ∧ digits.all Char.isDigit ∧ Nat.ofDigitChars 10 digits 0 ≤ bound then
    some (Nat.ofDigitChars 10 digits 0)
  else none

theorem dropPlus_of_isDigit {cs : List Char} (h : ∀ c ∈ cs, c.isDigit) : dropPlus cs = cs := by
  unfold dropPlus
  split
  · exact absurd (h '+' List.mem_cons_self) (by decide)
  · rfl

/-- The characters of a parsed number are digits, but for its sign. -/
theorem mem_of_parseUnsigned {bound n : ℕ} {s : List Char} (h : parseUnsigned bound s = some n)
    {c : Char} (hc : c ∈ s) : c.isDigit ∨ c = '+' := by
  simp only [parseUnsigned] at h
  split at h
  · rename_i hs
    have hdigits := List.all_eq_true.1 hs.2.1
    unfold dropPlus at hdigits
    split at hdigits
    · rcases List.mem_cons.1 hc with rfl | hmem
      · exact Or.inr rfl
      · exact Or.inl (hdigits c hmem)
    · exact Or.inl (hdigits c hc)
  · cases h

theorem isDigit_iff {c : Char} : c.isDigit = true ↔ 48 ≤ c.toNat ∧ c.toNat ≤ 57 := by
  rw [Char.isDigit, Bool.and_eq_true, decide_eq_true_eq, decide_eq_true_eq]
  exact Iff.rfl

/-- The digits of a number contain no sign. -/
theorem isDigit_of_mem_repr {n : ℕ} {c : Char} (h : c ∈ (Nat.repr n).toList) : c.isDigit := by
  rw [Nat.toList_repr] at h
  exact Nat.isDigit_of_mem_toDigits (by decide) (by decide) h

/-- The digits of a number are ASCII. -/
theorem ascii_of_mem_repr {n : ℕ} {c : Char} (h : c ∈ (Nat.repr n).toList) : c.toNat < 128 := by
  have hle := (isDigit_iff.1 (isDigit_of_mem_repr h)).2
  omega

/-- **A printed number is read back.** -/
theorem parseUnsigned_repr {n bound : ℕ} (h : n ≤ bound) :
    parseUnsigned bound (Nat.repr n).toList = some n := by
  have hdigits : ∀ c ∈ (Nat.repr n).toList, c.isDigit := fun c => isDigit_of_mem_repr
  have hne : (Nat.repr n).toList ≠ [] := by
    rw [Nat.toList_repr]; exact Nat.toDigits_ne_nil
  have hvalue : Nat.ofDigitChars 10 (Nat.repr n).toList 0 = n := by
    rw [Nat.toList_repr]; exact Nat.ofDigitChars_ten_toDigits
  simp only [parseUnsigned, dropPlus_of_isDigit hdigits, hvalue]
  rw [if_pos ⟨hne, List.all_eq_true.2 hdigits, h⟩]

/-! ### Lines -/

/-- A line without the carriage return that precedes its line feed. -/
def stripCarriageReturn (line : List Char) : List Char :=
  if line.getLast? = some '\r' then line.dropLast else line

/-- The lines of a text, each ended by a line feed or by a carriage return and a line feed.  Only
the last line may lack its line feed; a carriage return at its end is then kept. -/
def lines (s : List Char) : List (List Char) :=
  go [] s
where
  /-- The lines of the rest of a text, with the line begun so far. -/
  go (line : List Char) : List Char → List (List Char)
    | [] => if line = [] then [] else [line]
    | c :: cs =>
        if c = '\n' then stripCarriageReturn line :: go [] cs else go (line ++ [c]) cs

/-- The end of a line, seen from what follows what. -/
theorem followedBy_append_newline {line cs : List Char} (hline : '\n' ∉ line) :
    FollowedBy '\r' '\n' (line ++ '\n' :: cs) ↔
      '\r' ∉ stripCarriageReturn line ∧ FollowedBy '\r' '\n' cs := by
  have hnewline : FollowedBy '\r' '\n' ('\n' :: cs) ↔ FollowedBy '\r' '\n' cs := by
    simp [FollowedBy]
  rcases List.eq_nil_or_concat line with rfl | ⟨begun, last, rfl⟩
  · simp [stripCarriageReturn, hnewline]
  · rw [List.concat_eq_append] at hline ⊢
    have hbegun : '\n' ∉ begun := fun h => hline (List.mem_append_left _ h)
    have hlast : last ≠ '\n' := by
      rintro rfl
      exact hline (by simp)
    rw [List.append_assoc, List.singleton_append,
      followedBy_append_of_head_ne hbegun (by simpa using hlast), FollowedBy, hnewline]
    by_cases hreturn : last = '\r'
    · simp [stripCarriageReturn, hreturn]
    · simp [stripCarriageReturn, hreturn, Ne.symm hreturn]

/-- **No line keeps a carriage return exactly when each one precedes a line feed.** -/
theorem lines_noCarriageReturn_iff {s : List Char} :
    (∀ line ∈ lines s, '\r' ∉ line) ↔ FollowedBy '\r' '\n' s := by
  -- by induction on the rest of the text, with the line begun so far
  have hgo : ∀ (cs line : List Char), '\n' ∉ line →
      ((∀ l ∈ lines.go line cs, '\r' ∉ l) ↔ FollowedBy '\r' '\n' (line ++ cs)) := by
    intro cs
    induction cs with
    | nil =>
        intro line hline
        rw [List.append_nil, followedBy_of_notMem hline, lines.go]
        split
        · rename_i hempty
          simp [hempty]
        · simp
    | cons c cs ih =>
        intro line hline
        rw [lines.go]
        split
        · rename_i hc
          rw [hc, followedBy_append_newline hline, List.forall_mem_cons,
            ih [] List.not_mem_nil, List.nil_append]
        · rename_i hc
          have hline' : '\n' ∉ line ++ [c] := by simp [hline, Ne.symm hc]
          rw [ih (line ++ [c]) hline', List.append_assoc, List.singleton_append]
  exact hgo s [] List.not_mem_nil

/-- Every character of a line is a character of the text, and no line feed. -/
theorem mem_of_mem_lines {s line : List Char} (h : line ∈ lines s) {c : Char} (hc : c ∈ line) :
    c ∈ s ∧ c ≠ '\n' := by
  have hgo : ∀ (cs begun : List Char), '\n' ∉ begun →
      ∀ l ∈ lines.go begun cs, ∀ d ∈ l, d ∈ begun ++ cs ∧ d ≠ '\n' := by
    intro cs
    induction cs with
    | nil =>
        intro begun hbegun l hl d hd
        rw [lines.go] at hl
        split at hl
        · cases hl
        · rw [List.mem_singleton.1 hl] at hd
          exact ⟨by simpa using hd, fun heq => hbegun (heq ▸ hd)⟩
    | cons e cs ih =>
        intro begun hbegun l hl d hd
        rw [lines.go] at hl
        split at hl
        · rcases List.mem_cons.1 hl with hl | hl
          · have hmem : d ∈ begun := by
              rw [hl, stripCarriageReturn] at hd
              split at hd
              · exact List.dropLast_subset _ hd
              · exact hd
            exact ⟨List.mem_append_left _ hmem, fun heq => hbegun (heq ▸ hmem)⟩
          · obtain ⟨hmem, hne⟩ := ih [] List.not_mem_nil l hl d hd
            exact ⟨List.mem_append_right _ (List.mem_cons_of_mem _ hmem), hne⟩
        · rename_i he
          simpa using ih (begun ++ [e]) (by simp [hbegun, Ne.symm he]) l hl d hd
  exact hgo s [] List.not_mem_nil line h c hc

/-! ### Surrounding white space -/

/-- The white space of Unicode. -/
def isWhitespace (c : Char) : Bool :=
  let n := c.toNat
  (0x09 ≤ n && n ≤ 0x0D) || n == 0x20 || n == 0x85 || n == 0xA0 || n == 0x1680 ||
    (0x2000 ≤ n && n ≤ 0x200A) || n == 0x2028 || n == 0x2029 || n == 0x202F || n == 0x205F ||
    n == 0x3000

/-- A text without the white space around it. -/
def trim (s : List Char) : List Char :=
  ((s.dropWhile isWhitespace).reverse.dropWhile isWhitespace).reverse

/-- A line of visible characters is trimmed to its characters. -/
theorem trim_append_newline {cs : List Char} (h : ∀ c ∈ cs, isWhitespace c = false) :
    trim (cs ++ ['\n']) = cs := by
  have hnewline : isWhitespace '\n' = true := by decide
  cases cs with
  | nil => simp [trim, hnewline]
  | cons c cs =>
      have hreverse : ∀ d ∈ (c :: cs).reverse, isWhitespace d = false :=
        fun d hd => h d (List.mem_reverse.1 hd)
      rw [trim, List.cons_append, List.dropWhile_cons_of_neg (by simp [h c List.mem_cons_self]),
        ← List.cons_append, List.reverse_append, List.reverse_singleton, List.singleton_append,
        List.dropWhile_cons_of_pos hnewline]
      cases hr : (c :: cs).reverse with
      | nil => simp at hr
      | cons d ds =>
          have hd : isWhitespace d = false := hreverse d (by rw [hr]; exact List.mem_cons_self)
          rw [List.dropWhile_cons_of_neg (by simp [hd]), ← hr, List.reverse_reverse]

/-! ### Chunks -/

/-- The chunks of a list, all of the given width but the last; `fuel` bounds their number. -/
def chunksFrom {α : Type*} (width : ℕ) : ℕ → List α → List (List α)
  | 0, _ => []
  | fuel + 1, xs =>
      if xs.isEmpty then [] else xs.take width :: chunksFrom width fuel (xs.drop width)

/-- The chunks of a list. -/
def chunks {α : Type*} (width : ℕ) (xs : List α) : List (List α) := chunksFrom width xs.length xs

/-- Nothing is lost between two chunks. -/
theorem flatten_chunks {α : Type*} {width : ℕ} (h : 0 < width) (xs : List α) :
    (chunks width xs).flatten = xs := by
  have hfrom : ∀ (fuel : ℕ) (ys : List α), ys.length ≤ fuel →
      (chunksFrom width fuel ys).flatten = ys := by
    intro fuel
    induction fuel with
    | zero =>
        intro ys hys
        rw [List.length_eq_zero_iff.1 (Nat.le_zero.1 hys)]
        rfl
    | succ fuel ih =>
        intro ys hys
        rw [chunksFrom]
        split
        · rename_i hempty
          rw [List.isEmpty_iff.1 hempty]
          rfl
        · have hdrop : (ys.drop width).length ≤ fuel := by
            rw [List.length_drop]
            omega
          rw [List.flatten_cons, ih _ hdrop, List.take_append_drop]
  exact hfrom xs.length xs le_rfl

/-- A chunk starts at a multiple of the width. -/
theorem getElem?_chunks {α : Type*} {width : ℕ} (h : 0 < width) (xs : List α) (k : ℕ) :
    (chunks width xs)[k]? =
      if k * width < xs.length then some ((xs.drop (k * width)).take width) else none := by
  have hfrom : ∀ (fuel : ℕ) (ys : List α) (k : ℕ), ys.length ≤ fuel →
      (chunksFrom width fuel ys)[k]? =
        if k * width < ys.length then some ((ys.drop (k * width)).take width) else none := by
    intro fuel
    induction fuel with
    | zero =>
        intro ys k hys
        rw [if_neg (by omega)]
        rfl
    | succ fuel ih =>
        intro ys k hys
        rw [chunksFrom]
        split
        · rename_i hempty
          rw [List.isEmpty_iff.1 hempty]
          rfl
        · rename_i hempty
          have hpos : 0 < ys.length := by
            rw [List.length_pos_iff]
            exact fun hnil => hempty (List.isEmpty_iff.2 hnil)
          cases k with
          | zero => rw [List.getElem?_cons_zero, Nat.zero_mul, if_pos hpos, List.drop_zero]
          | succ k =>
              have hdrop : (ys.drop width).length ≤ fuel := by
                rw [List.length_drop]
                omega
              rw [List.getElem?_cons_succ, ih _ k hdrop, List.drop_drop, List.length_drop,
                Nat.add_comm width, ← Nat.succ_mul]
              refine if_congr ?_ rfl rfl
              rw [Nat.succ_mul]
              omega
  exact hfrom xs.length xs k le_rfl

/-- The length of a chunk: the width, or what is left. -/
theorem length_of_getElem?_chunks {α : Type*} {width k : ℕ} (h : 0 < width) {xs chunk : List α}
    (hchunk : (chunks width xs)[k]? = some chunk) :
    k * width < xs.length ∧ chunk.length = min width (xs.length - k * width) := by
  rw [getElem?_chunks h] at hchunk
  split at hchunk
  · rename_i hlt
    obtain rfl := Option.some_inj.1 hchunk
    exact ⟨hlt, by rw [List.length_take, List.length_drop]⟩
  · cases hchunk

/-- How many chunks there are. -/
theorem length_chunks {α : Type*} {width : ℕ} (h : 0 < width) (xs : List α) :
    (chunks width xs).length = xs.length ⌈/⌉ width := by
  refine Nat.le_antisymm ?_ ?_
  · refine List.getElem?_eq_none_iff.1 ?_
    rw [getElem?_chunks h, if_neg]
    have hle := (ceilDiv_le_iff_le_mul h).1 (le_refl (xs.length ⌈/⌉ width))
    rw [Nat.mul_comm]
    omega
  · rw [ceilDiv_le_iff_le_mul h, Nat.mul_comm]
    have hnone := List.getElem?_eq_none_iff.2 (le_refl (chunks width xs).length)
    rw [getElem?_chunks h] at hnone
    by_contra hlt
    rw [if_pos (by omega)] at hnone
    cases hnone

/-- A property holds of the chunks exactly when it holds of the list. -/
theorem forall_mem_chunks {α : Type*} {width : ℕ} (h : 0 < width) {xs : List α} {P : α → Prop} :
    (∀ chunk ∈ chunks width xs, ∀ a ∈ chunk, P a) ↔ ∀ a ∈ xs, P a := by
  conv_rhs => rw [← flatten_chunks h xs]
  rw [List.forall_mem_flatten]

/-- The control characters of Unicode. -/
def isControl (c : Char) : Bool := c.toNat < 0x20 || (0x7f ≤ c.toNat && c.toNat < 0xa0)

end Text
