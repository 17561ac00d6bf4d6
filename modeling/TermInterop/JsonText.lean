/-
The text of a JSON document.

A document is written compactly, or with each item of an array and each member of an object on a
line of its own, indented by its depth.  An empty array or object takes no lines.  How a number with
a fraction or an exponent is written is a parameter.

A reader skips blanks between tokens, so that it reads both forms.  It goes down to some depth and
no further.  The one that is given here reads digits alone as a number.

Main definitions:

* `Json.write` — what is written for a document;
* `Json.Document.Within` — a document of some depth, with numbers that fit into 128 bits;
* `Json.parse` — a reader.

Main results:

* `Json.write_array_compact`, `Json.write_object_compact` — compact JSON is what `Json.array` and
  `Json.object` write;
* `Json.readValue_write`, `Json.parse_write` — **a document is read back**, in both forms.
-/

import TermInterop.Json
import TermInterop.JsonDocuments

set_option relaxedAutoImplicit false
set_option autoImplicit false

namespace Json

def comma : UInt8 := 0x2C

/-! ### Writing -/

/-- What comes before a piece: nothing in compact JSON, and else a new line with its indentation. -/
def gap : Option ℕ → List UInt8
  | none => []
  | some depth => newline :: List.replicate (2 * depth) 0x20

/-- What comes between a name and its value. -/
def colon : Option ℕ → List UInt8
  | none => [0x3A]
  | some _ => [0x3A, 0x20]

/-- One level down. -/
def deeper (depth : Option ℕ) : Option ℕ := depth.map (· + 1)

/-- The pieces of an array or of an object, between its brackets. -/
def enclosed (opening closing : UInt8) (depth : Option ℕ) (pieces : List (List UInt8)) :
    List UInt8 :=
  if pieces = [] then [opening, closing]
  else opening ::
    (List.intercalate [comma] (pieces.map (gap (deeper depth) ++ ·)) ++ (gap depth ++ [closing]))

/-- A name and its value. -/
def memberAt (depth : Option ℕ) (name : String) (value : List UInt8) : List UInt8 :=
  string name ++ (colon depth ++ value)

section Writing

variable (float : ℚ → List UInt8)

def writeNumeral : Numeral → List UInt8
  | .natural n => number n
  | .negated n => 0x2D :: number n
  | .decimal value => float value

mutual

/-- **What is written for a document** at some depth; compactly when there is none. -/
def write (depth : Option ℕ) : Document → List UInt8
  | .null => null
  | .boolean b => Text.asBytes (if b then "true" else "false")
  | .number n => writeNumeral float n
  | .string s => string s
  | .array items => enclosed 0x5B 0x5D depth (writeItems (deeper depth) items)
  | .object members => enclosed 0x7B 0x7D depth (writeMembers (deeper depth) members)

/-- The items of an array. -/
def writeItems (depth : Option ℕ) : List Document → List (List UInt8)
  | [] => []
  | d :: items => write depth d :: writeItems depth items

/-- The members of an object. -/
def writeMembers (depth : Option ℕ) : Members → List (List UInt8)
  | [] => []
  | (name, d) :: members => memberAt depth name (write depth d) :: writeMembers depth members

end

variable {float} {depth : Option ℕ}

theorem write_string (s : String) : write float depth (.string s) = string s := rfl

theorem writeItems_eq (items : List Document) :
    writeItems float depth items = items.map (write float depth) := by
  induction items with
  | nil => rfl
  | cons d items ih => rw [writeItems, ih, List.map_cons]

theorem writeMembers_eq (members : Members) :
    writeMembers float depth members =
      members.map fun m => memberAt depth m.1 (write float depth m.2) := by
  induction members with
  | nil => rfl
  | cons m members ih => rw [writeMembers, ih, List.map_cons]

theorem enclosed_compact (opening closing : UInt8) (pieces : List (List UInt8)) :
    enclosed opening closing none pieces =
      opening :: (List.intercalate [comma] pieces ++ [closing]) := by
  rw [enclosed]
  split_ifs with hnil
  · rw [hnil]
    rfl
  · simp [deeper, gap]

/-- **A compact array** is its items. -/
theorem write_array_compact (items : List Document) :
    write float none (.array items) = array (items.map (write float none)) := by
  rw [write, enclosed_compact, writeItems_eq]
  rfl

/-- **A compact object** is its members. -/
theorem write_object_compact (members : Members) :
    write float none (.object members) =
      object (members.map fun m => (m.1, write float none m.2)) := by
  rw [write, enclosed_compact, writeMembers_eq, object, List.map_map]
  rfl

end Writing

/-! ### Documents of some depth -/

/-- **A document of some depth**, whose numbers are naturals that fit into 128 bits. -/
def Document.Within : ℕ → Document → Prop
  | _, .null => True
  | _, .boolean _ => True
  | _, .number n => ∃ m < 2 ^ 128, n = .natural m
  | _, .string _ => True
  | 0, .array _ => False
  | k + 1, .array items => ∀ d ∈ items, d.Within k
  | 0, .object _ => False
  | k + 1, .object members => ∀ m ∈ members, m.2.Within k

theorem Document.Within.mono {k l : ℕ} {d : Document} (h : d.Within k) (hle : k ≤ l) :
    d.Within l := by
  induction l generalizing k d with
  | zero =>
      obtain rfl := Nat.le_zero.1 hle
      exact h
  | succ l ih =>
      cases d with
      | array items =>
          cases k with
          | zero => exact h.elim
          | succ k => exact fun d hd => ih (h d hd) (Nat.le_of_succ_le_succ hle)
      | object members =>
          cases k with
          | zero => exact h.elim
          | succ k => exact fun m hm => ih (h m hm) (Nat.le_of_succ_le_succ hle)
      | number n => cases k <;> exact h
      | _ => trivial

/-! ### Reading -/

def isBlank (b : UInt8) : Bool := b = 0x20 ∨ b = 0x09 ∨ b = newline ∨ b = 0x0D

def skipBlanks (bytes : List UInt8) : List UInt8 := bytes.dropWhile isBlank

/-- Some items with commas between them, up to the byte that closes them. -/
def readMany {α : Type} (item : List UInt8 → Option (α × List UInt8)) (closing : UInt8) :
    ℕ → List UInt8 → Option (List α × List UInt8)
  | 0, _ => none
  | fuel + 1, bytes => do
      let (a, bytes) ← item bytes
      match skipBlanks bytes with
      | [] => none
      | b :: bytes =>
          if b = closing then some ([a], bytes)
          else if b = comma then do
            let (rest, bytes) ← readMany item closing fuel bytes
            some (a :: rest, bytes)
          else none

/-- The same when there may be none. -/
def readEnclosed {α : Type} (item : List UInt8 → Option (α × List UInt8)) (closing : UInt8)
    (bytes : List UInt8) : Option (List α × List UInt8) :=
  match skipBlanks bytes with
  | [] => none
  | b :: rest => if b = closing then some ([], rest) else readMany item closing bytes.length bytes

/-- A name and its value. -/
def readPair {α : Type} (value : List UInt8 → Option (α × List UInt8)) (bytes : List UInt8) :
    Option ((String × α) × List UInt8) := do
  let (name, bytes) ← readString (skipBlanks bytes)
  let bytes ← skip [0x3A] (skipBlanks bytes)
  let (a, bytes) ← value bytes
  some ((name, a), bytes)

/-- A number, `null` or a truth value. -/
def readScalar (bytes : List UInt8) : Option (Document × List UInt8) :=
  match readNumber bytes with
  | some (n, rest) => if n < 2 ^ 128 then some (.number (.natural n), rest) else none
  | none =>
      match skip null bytes, skip (Text.asBytes "true") bytes,
        skip (Text.asBytes "false") bytes with
      | some rest, _, _ => some (.null, rest)
      | _, some rest, _ => some (.boolean true, rest)
      | _, _, some rest => some (.boolean false, rest)
      | none, none, none => none

/-- A document at the beginning of some bytes, and what follows it. -/
def readValue : ℕ → List UInt8 → Option (Document × List UInt8)
  | 0, bytes =>
      let bytes := skipBlanks bytes
      if bytes.head? = some quote then (readString bytes).map fun r => (.string r.1, r.2)
      else readScalar bytes
  | k + 1, bytes =>
      let bytes := skipBlanks bytes
      if bytes.head? = some quote then (readString bytes).map fun r => (.string r.1, r.2)
      else if bytes.head? = some 0x5B then
        (readEnclosed (readValue k) 0x5D bytes.tail).map fun r => (.array r.1, r.2)
      else if bytes.head? = some 0x7B then
        (readEnclosed (readPair (readValue k)) 0x7D bytes.tail).map fun r => (.object r.1, r.2)
      else readScalar bytes

/-- How deep a reader goes. -/
def RECURSION_LIMIT : ℕ := 127

/-- **A reader**: a document, and blanks after it. -/
def parse (bytes : List UInt8) : Option Document :=
  match readValue RECURSION_LIMIT bytes with
  | some (d, rest) => if skipBlanks rest = [] then some d else none
  | none => none

/-! ### What is read of what was written -/

section Tokens

variable {blanks bytes rest : List UInt8} {depth : Option ℕ} {b closing : UInt8}

theorem skipBlanks_append (h : ∀ b ∈ blanks, isBlank b = true) :
    skipBlanks (blanks ++ bytes) = skipBlanks bytes := by
  rw [skipBlanks, List.dropWhile_append_of_pos h, skipBlanks]

theorem skipBlanks_cons (h : isBlank b = false) : skipBlanks (b :: bytes) = b :: bytes := by
  rw [skipBlanks, List.dropWhile_cons_of_neg (by simp [h])]

theorem isBlank_of_mem_gap (h : b ∈ gap depth) : isBlank b = true := by
  cases depth with
  | none => cases h
  | some depth =>
      rcases List.mem_cons.1 h with rfl | hmem
      · rfl
      · rw [List.eq_of_mem_replicate hmem]
        rfl

theorem skipBlanks_gap (hb : isBlank b = false) :
    skipBlanks (gap depth ++ b :: bytes) = b :: bytes := by
  rw [skipBlanks_append fun _ => isBlank_of_mem_gap, skipBlanks_cons hb]

/-- What comes after a value does not go on with a digit. -/
def Stops (rest : List UInt8) : Prop := ∀ b ∈ rest.head?, isDigitByte b = false

theorem stops_gap (hb : isDigitByte b = false) : Stops (gap depth ++ b :: bytes) := by
  cases depth with
  | none =>
      rintro d ⟨rfl⟩
      exact hb
  | some depth =>
      rintro d ⟨rfl⟩
      decide

/-- A byte that closes an array or an object. -/
structure Closes (closing : UInt8) : Prop where
  blank : isBlank closing = false
  digit : isDigitByte closing = false
  comma : closing ≠ comma

/-- **Pieces with commas between them are read one by one.** -/
theorem readMany_pieces {α : Type} {item : List UInt8 → Option (α × List UInt8)}
    {w : α → List UInt8} (hclosing : Closes closing) (as : List α) (hne : as ≠ []) {fuel : ℕ}
    (hfuel : as.length ≤ fuel)
    (hitem : ∀ a ∈ as, ∀ rest, Stops rest → item (w a ++ rest) = some (a, rest)) :
    readMany item closing fuel
      (List.intercalate [Json.comma] (as.map w) ++ (gap depth ++ closing :: rest)) =
        some (as, rest) := by
  induction as generalizing fuel with
  | nil => exact absurd rfl hne
  | cons a as ih =>
      obtain ⟨fuel, rfl⟩ : ∃ n, fuel = n + 1 := ⟨fuel - 1, by
        rw [List.length_cons] at hfuel
        omega⟩
      cases as with
      | nil =>
          have hstops : Stops (gap depth ++ closing :: rest) := stops_gap hclosing.digit
          have hread := hitem a List.mem_cons_self _ hstops
          rw [List.map_cons, List.map_nil, List.intercalate_singleton, readMany, hread]
          simp [skipBlanks_gap hclosing.blank]
      | cons a' as =>
          have hstops : Stops (Json.comma :: (List.intercalate [Json.comma] ((a' :: as).map w) ++
              (gap depth ++ closing :: rest))) := by
            rintro b ⟨rfl⟩
            decide
          have hread := hitem a List.mem_cons_self _ hstops
          have hrest := ih (List.cons_ne_nil _ _) (Nat.le_of_succ_le_succ hfuel)
            fun a'' hmem => hitem a'' (List.mem_cons_of_mem _ hmem)
          have hblank : isBlank Json.comma = false := by decide
          rw [List.map_cons, List.map_cons, List.intercalate_cons_cons, ← List.map_cons,
            List.append_assoc, List.append_assoc, List.singleton_append, readMany, hread]
          simp only [Option.bind_eq_bind, Option.bind_some, skipBlanks_cons hblank,
            if_neg hclosing.comma.symm, if_true, hrest]

theorem length_le_intercalate {α : Type} {w : α → List UInt8} (as : List α) :
    as.length ≤ (List.intercalate [Json.comma] (as.map w) ++
      (gap depth ++ closing :: rest)).length := by
  induction as with
  | nil => exact Nat.zero_le _
  | cons a as ih =>
      cases as with
      | nil =>
          simp only [List.length_append, List.length_cons, List.length_nil]
          omega
      | cons a' as =>
          rw [List.map_cons, List.map_cons, List.intercalate_cons_cons, ← List.map_cons]
          simp only [List.length_append, List.length_cons] at ih ⊢
          omega

/-- **An array or an object is read back**, when its pieces are. -/
theorem readEnclosed_enclosed {α : Type} {item : List UInt8 → Option (α × List UInt8)}
    {w : α → List UInt8} {opening : UInt8} (hclosing : Closes closing) (as : List α)
    (hstart : ∀ a ∈ as, ∃ b tail, w a = b :: tail ∧ isBlank b = false ∧ b ≠ closing)
    (hitem : ∀ a ∈ as, ∀ rest, Stops rest →
      item (gap (deeper depth) ++ w a ++ rest) = some (a, rest))
    (hbytes : enclosed opening closing depth (as.map w) ++ rest = opening :: bytes) :
    readEnclosed item closing bytes = some (as, rest) := by
  rw [enclosed] at hbytes
  cases as with
  | nil =>
      obtain rfl : closing :: rest = bytes := (List.cons.inj hbytes).2
      rw [readEnclosed, skipBlanks_cons hclosing.blank]
      exact if_pos rfl
  | cons a as =>
      rw [if_neg (by simp), List.map_map] at hbytes
      obtain ⟨b, tail, hw, hblank, hne⟩ := hstart a List.mem_cons_self
      obtain rfl : List.intercalate [Json.comma]
          ((a :: as).map fun a => gap (deeper depth) ++ w a) ++ (gap depth ++ closing :: rest) =
            bytes := by
        rw [List.cons_append, List.append_assoc, List.append_assoc, List.singleton_append] at hbytes
        exact (List.cons.inj hbytes).2
      have hread : readMany item closing (List.intercalate [Json.comma]
          ((a :: as).map fun a => gap (deeper depth) ++ w a) ++
            (gap depth ++ closing :: rest)).length
          (List.intercalate [Json.comma] ((a :: as).map fun a => gap (deeper depth) ++ w a) ++
            (gap depth ++ closing :: rest)) = some (a :: as, rest) :=
        readMany_pieces hclosing (a :: as) (List.cons_ne_nil _ _)
          (length_le_intercalate (a :: as)) hitem
      have hfirst : ∃ more, List.intercalate [Json.comma]
          ((a :: as).map fun a => gap (deeper depth) ++ w a) ++ (gap depth ++ closing :: rest) =
            gap (deeper depth) ++ b :: more := by
        cases as with
        | nil => exact ⟨tail ++ (gap depth ++ closing :: rest), by simp [hw]⟩
        | cons a' as =>
            refine ⟨tail ++ ([Json.comma] ++ List.intercalate [Json.comma]
              ((a' :: as).map fun a => gap (deeper depth) ++ w a)) ++
                (gap depth ++ closing :: rest), ?_⟩
            rw [List.map_cons, List.map_cons, List.intercalate_cons_cons, hw]
            simp
      obtain ⟨more, hmore⟩ := hfirst
      have hskip : skipBlanks (gap (deeper depth) ++ b :: more) = b :: more := skipBlanks_gap hblank
      rw [← hmore] at hskip
      rw [readEnclosed, hskip]
      exact (if_neg hne).trans hread

end Tokens

section Values

variable {float : ℚ → List UInt8} {depth : Option ℕ} {bytes rest blanks : List UInt8} {d : Document}
  {k : ℕ}

theorem readValue_append (h : ∀ b ∈ blanks, isBlank b = true) :
    readValue k (blanks ++ bytes) = readValue k bytes := by
  cases k <;> simp only [readValue, skipBlanks_append h]

/-- A text is read back. -/
theorem readValue_string (s : String) :
    readValue k (string s ++ rest) = some (.string s, rest) := by
  have hblank : isBlank quote = false := by decide
  have hskip : skipBlanks (string s ++ rest) = string s ++ rest := skipBlanks_cons hblank
  have hhead : (string s ++ rest).head? = some quote := rfl
  cases k <;> rw [readValue, hskip, if_pos hhead, readString_string] <;> rfl

/-- What is no text, no array and no object is read as a scalar. -/
theorem readValue_of_scalar {b : UInt8} (hblank : isBlank b = false) (hquote : b ≠ quote)
    (harray : b ≠ 0x5B) (hobject : b ≠ 0x7B) :
    readValue k (b :: bytes) = readScalar (b :: bytes) := by
  cases k with
  | zero =>
      rw [readValue, skipBlanks_cons hblank]
      exact if_neg fun h => hquote (Option.some.inj h)
  | succ k =>
      rw [readValue, skipBlanks_cons hblank]
      exact (if_neg fun h => hquote (Option.some.inj h)).trans
        ((if_neg fun h => harray (Option.some.inj h)).trans
          (if_neg fun h => hobject (Option.some.inj h)))

/-- What does not start with a digit is no number. -/
theorem readNumber_of_not_digit {b : UInt8} (h : isDigitByte b = false) :
    readNumber (b :: bytes) = none := by
  rw [readNumber, if_pos]
  simp [h]

theorem readValue_null : readValue k (null ++ rest) = some (.null, rest) := by
  have hnumber : readNumber (null ++ rest) = none := readNumber_of_not_digit (by decide)
  have hscalar : readScalar (null ++ rest) = some (.null, rest) := by
    rw [readScalar, hnumber, skip_append]
  rw [← hscalar]
  exact readValue_of_scalar (by decide) (by decide) (by decide) (by decide)

theorem readValue_boolean (b : Bool) :
    readValue k (Text.asBytes (if b then "true" else "false") ++ rest) =
      some (.boolean b, rest) := by
  have htrue : Text.asBytes "true" = [0x74, 0x72, 0x75, 0x65] := by decide
  have hfalse : Text.asBytes "false" = [0x66, 0x61, 0x6C, 0x73, 0x65] := by decide
  cases b with
  | true =>
      have hscalar : readScalar (Text.asBytes "true" ++ rest) = some (.boolean true, rest) := by
        rw [readScalar, skip_append, htrue]
        have hnumber : readNumber ([0x74, 0x72, 0x75, 0x65] ++ rest) = none :=
          readNumber_of_not_digit (by decide)
        have hnull : skip null ([0x74, 0x72, 0x75, 0x65] ++ rest) = none := by simp [skip, null]
        rw [hnumber, hnull]
      simp only [if_true]
      rw [← hscalar, htrue]
      exact readValue_of_scalar (by decide) (by decide) (by decide) (by decide)
  | false =>
      have hscalar : readScalar (Text.asBytes "false" ++ rest) = some (.boolean false, rest) := by
        rw [readScalar, skip_append, htrue, hfalse]
        have hnumber : readNumber ([0x66, 0x61, 0x6C, 0x73, 0x65] ++ rest) = none :=
          readNumber_of_not_digit (by decide)
        have hnull : skip null ([0x66, 0x61, 0x6C, 0x73, 0x65] ++ rest) = none := by
          simp [skip, null]
        have hother : skip [0x74, 0x72, 0x75, 0x65] ([0x66, 0x61, 0x6C, 0x73, 0x65] ++ rest) =
            none := by
          simp [skip]
        rw [hnumber, hnull, hother]
      simp only [Bool.false_eq_true, if_false]
      rw [← hscalar, hfalse]
      exact readValue_of_scalar (by decide) (by decide) (by decide) (by decide)

/-- A number is read back, up to what does not go on with a digit. -/
theorem readValue_number {n : ℕ} (hn : n < 2 ^ 128) (hrest : Stops rest) :
    readValue k (number n ++ rest) = some (.number (.natural n), rest) := by
  have hscalar : readScalar (number n ++ rest) = some (.number (.natural n), rest) := by
    rw [readScalar, readNumber_number n hrest]
    exact if_pos hn
  have hne : number n ≠ [] := by
    rw [number, Ne, List.map_eq_nil_iff]
    exact Nat.toDigits_ne_nil
  obtain ⟨b, digits, hdigits⟩ := List.exists_cons_of_ne_nil hne
  have hdigit : isDigitByte b = true :=
    isDigitByte_of_mem_number (n := n) (by rw [hdigits]; exact List.mem_cons_self)
  have hother : ∀ c : UInt8, isDigitByte c = false → b ≠ c := by
    rintro c hc rfl
    rw [hdigit] at hc
    cases hc
  have hblank : isBlank b = false := by
    rw [isBlank, decide_eq_false_iff_not]
    rintro (h | h | h | h) <;> exact hother _ (by decide) h
  rw [← hscalar, hdigits]
  exact readValue_of_scalar hblank (hother _ (by decide)) (hother _ (by decide))
    (hother _ (by decide))

/-- A document is not written with a blank or a closing bracket first. -/
theorem exists_write_eq_cons (float : ℚ → List UInt8) (h : d.Within k) (depth : Option ℕ) :
    ∃ b tail, write float depth d = b :: tail ∧ isBlank b = false ∧ b ≠ 0x5D ∧ b ≠ 0x7D := by
  cases d with
  | null => exact ⟨_, _, rfl, by decide, by decide, by decide⟩
  | boolean b => cases b <;> exact ⟨_, _, rfl, by decide, by decide, by decide⟩
  | number n =>
      obtain ⟨m, -, rfl⟩ : ∃ m < 2 ^ 128, n = .natural m := by cases k <;> exact h
      have hne : number m ≠ [] := by
        rw [number, Ne, List.map_eq_nil_iff]
        exact Nat.toDigits_ne_nil
      obtain ⟨b, digits, hdigits⟩ := List.exists_cons_of_ne_nil hne
      have hdigit : isDigitByte b = true :=
        isDigitByte_of_mem_number (n := m) (by rw [hdigits]; exact List.mem_cons_self)
      have hother : ∀ c : UInt8, isDigitByte c = false → b ≠ c := by
        rintro c hc rfl
        rw [hdigit] at hc
        cases hc
      refine ⟨b, digits, hdigits, ?_, hother _ (by decide), hother _ (by decide)⟩
      rw [isBlank, decide_eq_false_iff_not]
      rintro (h | h | h | h) <;> exact hother _ (by decide) h
  | string s => exact ⟨_, _, rfl, by decide, by decide, by decide⟩
  | array items =>
      rw [write, enclosed]
      split_ifs <;> exact ⟨_, _, rfl, by decide, by decide, by decide⟩
  | object members =>
      rw [write, enclosed]
      split_ifs <;> exact ⟨_, _, rfl, by decide, by decide, by decide⟩

/-- A name with its value is read back, when the value is. -/
theorem readPair_memberAt {α : Type} {value : List UInt8 → Option (α × List UInt8)} {name : String}
    {a : α} {written : List UInt8}
    (hvalue : ∀ blanks, (∀ b ∈ blanks, isBlank b = true) →
      value (blanks ++ (written ++ rest)) = some (a, rest)) :
    readPair value (gap depth ++ memberAt depth name written ++ rest) = some ((name, a), rest) := by
  have hblank : isBlank quote = false := by decide
  have hcolon : isBlank 0x3A = false := by decide
  have hname : skipBlanks (gap depth ++ memberAt depth name written ++ rest) =
      string name ++ (colon depth ++ (written ++ rest)) := by
    have hmember : gap depth ++ memberAt depth name written ++ rest =
        gap depth ++ quote :: (escape (Text.asBytes name) ++ [quote] ++
          (colon depth ++ (written ++ rest))) := by
      simp [memberAt, string]
    rw [hmember, skipBlanks_gap hblank]
    simp [string]
  obtain ⟨blanks, hcolons, hblanks⟩ : ∃ blanks, colon depth = 0x3A :: blanks ∧
      ∀ b ∈ blanks, isBlank b = true := by
    cases depth with
    | none => exact ⟨[], rfl, by simp⟩
    | some depth => exact ⟨[0x20], rfl, by simp [isBlank]⟩
  have hskip : skip [0x3A] (0x3A :: (blanks ++ (written ++ rest))) =
      some (blanks ++ (written ++ rest)) :=
    skip_append [0x3A] _
  rw [readPair, hname, readString_string]
  simp only [Option.bind_eq_bind, Option.bind_some, hcolons, List.cons_append,
    skipBlanks_cons hcolon, hskip, hvalue blanks hblanks]

/-- **A document is read back**, up to what follows it. -/
theorem readValue_write (float : ℚ → List UInt8) (h : d.Within k) (depth : Option ℕ)
    (hrest : Stops rest) : readValue k (write float depth d ++ rest) = some (d, rest) := by
  induction k generalizing d depth rest with
  | zero =>
      cases d with
      | null => exact readValue_null
      | boolean b => exact readValue_boolean b
      | number n =>
          obtain ⟨m, hm, rfl⟩ := h
          exact readValue_number hm hrest
      | string s => exact readValue_string s
      | array items => exact h.elim
      | object members => exact h.elim
  | succ k ih =>
      cases d with
      | null => exact readValue_null
      | boolean b => exact readValue_boolean b
      | number n =>
          obtain ⟨m, hm, rfl⟩ := h
          exact readValue_number hm hrest
      | string s => exact readValue_string s
      | array items =>
          obtain ⟨bytes, hbytes⟩ :
              ∃ bytes, write float depth (.array items) ++ rest = 0x5B :: bytes := by
            rw [write, enclosed]
            split_ifs <;> exact ⟨_, rfl⟩
          have hblank : isBlank 0x5B = false := by decide
          have hitems : readEnclosed (readValue k) 0x5D bytes = some (items, rest) := by
            rw [write, writeItems_eq] at hbytes
            refine readEnclosed_enclosed ⟨by decide, by decide, by decide⟩ items ?_ ?_ hbytes
            · intro item hitem
              obtain ⟨b, tail, hb, hblank, hne, -⟩ :=
                exists_write_eq_cons float (h item hitem) (deeper depth)
              exact ⟨b, tail, hb, hblank, hne⟩
            · intro item hitem more hmore
              rw [List.append_assoc, readValue_append fun _ => isBlank_of_mem_gap]
              exact ih (h item hitem) (deeper depth) hmore
          rw [hbytes, readValue, skipBlanks_cons hblank]
          simp [hitems, quote]
      | object members =>
          obtain ⟨bytes, hbytes⟩ : ∃ bytes,
              write float depth (.object members) ++ rest = 0x7B :: bytes := by
            rw [write, enclosed]
            split_ifs <;> exact ⟨_, rfl⟩
          have hblank : isBlank 0x7B = false := by decide
          have hmembers :
              readEnclosed (readPair (readValue k)) 0x7D bytes = some (members, rest) := by
            rw [write, writeMembers_eq] at hbytes
            refine readEnclosed_enclosed ⟨by decide, by decide, by decide⟩ members ?_ ?_ hbytes
            · intro m hm
              exact ⟨quote, _, rfl, by decide, by decide⟩
            · intro m hm more hmore
              refine readPair_memberAt fun blanks hblanks => ?_
              rw [readValue_append hblanks]
              exact ih (h m hm) (deeper depth) hmore
          rw [hbytes, readValue, skipBlanks_cons hblank]
          simp [hmembers, quote]

/-- **A document with blanks after it is read back.** -/
theorem parse_write (float : ℚ → List UInt8) (h : d.Within RECURSION_LIMIT) (depth : Option ℕ)
    (hblanks : ∀ b ∈ blanks, isBlank b = true) :
    parse (write float depth d ++ blanks) = some d := by
  have hstops : Stops blanks := by
    intro b hb
    have hblank := hblanks b (List.mem_of_mem_head? hb)
    rw [isBlank, decide_eq_true_eq] at hblank
    rcases hblank with rfl | rfl | rfl | rfl <;> decide
  have hall : skipBlanks blanks = [] := List.dropWhile_eq_nil_iff.2 hblanks
  rw [parse, readValue_write float h depth hstops]
  exact if_pos hall

end Values

end Json
