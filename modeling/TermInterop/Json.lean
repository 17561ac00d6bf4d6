/-
Compact JSON as it is written.

A compact writer leaves no blanks between tokens.  In a string it escapes the quotation mark, the
backslash and the control characters, each byte on its own, and copies every other byte.  So no
line break is ever written, and a string ends where its closing quotation mark stands: what is
written after it cannot be mistaken for a part of it.

Main definitions:

* `Json.string`, `Json.object`, `Json.array` — what is written for a string, an object and an array;
* `Json.number` — what is written for a number;
* `Json.readString`, `Json.readNumber` — a reader for what is written.

Main results:

* `Json.newline_notMem_string`, `Json.newline_notMem_object` — **compact JSON is one line**;
* `Json.escapedLength_le_chars`, `Json.length_object`, `Json.length_array_le` — how long it is;
* `Json.readString_string`, `Json.readNumber_number` — **strings and numbers are read back**, with
  what follows them.
-/

import TermInterop.Text

set_option relaxedAutoImplicit false
set_option autoImplicit false

namespace Json

def quote : UInt8 := 0x22

def backslash : UInt8 := 0x5C

def newline : UInt8 := 0x0A

/-- A lowercase hexadecimal digit. -/
def hexDigit (n : UInt8) : UInt8 := if n < 10 then 0x30 + n else 0x57 + n

/-- What is written for one byte of a string. -/
def escapeByte (b : UInt8) : List UInt8 :=
  if b = quote then [backslash, quote]
  else if b = backslash then [backslash, backslash]
  else if b = 0x08 then [backslash, 0x62]
  else if b = 0x09 then [backslash, 0x74]
  else if b = newline then [backslash, 0x6E]
  else if b = 0x0C then [backslash, 0x66]
  else if b = 0x0D then [backslash, 0x72]
  else if b < 0x20 then [backslash, 0x75, 0x30, 0x30, hexDigit (b / 16), hexDigit (b % 16)]
  else [b]

def escape (bytes : List UInt8) : List UInt8 := bytes.flatMap escapeByte

/-- A string, between quotation marks. -/
def string (s : String) : List UInt8 := quote :: (escape (Text.asBytes s) ++ [quote])

/-- A name and the value after it. -/
def member (m : String × List UInt8) : List UInt8 := string m.1 ++ 0x3A :: m.2

/-- An object with its members in the order of their declaration. -/
def object (members : List (String × List UInt8)) : List UInt8 :=
  0x7B :: (List.intercalate [0x2C] (members.map member) ++ [0x7D])

/-! ### One line -/

theorem newline_notMem_escapeByte (b : UInt8) : newline ∉ escapeByte b := by
  have hdigit : ∀ n : UInt8, n < 16 → newline ≠ hexDigit n := by decide +kernel
  unfold escapeByte
  split_ifs with h₁ h₂ h₃ h₄ h₅ h₆ h₇ h₈
  · decide
  · decide
  · decide
  · decide
  · decide
  · decide
  · decide
  · have hhigh : b / 16 < 16 := by
      have hb := b.toNat_lt
      rw [UInt8.lt_iff_toNat_lt, UInt8.toNat_div, show (16 : UInt8).toNat = 16 from rfl]
      omega
    have hlow : b % 16 < 16 := by
      rw [UInt8.lt_iff_toNat_lt, UInt8.toNat_mod, show (16 : UInt8).toNat = 16 from rfl]
      omega
    have hfirst := hdigit (b / 16) hhigh
    have hsecond := hdigit (b % 16) hlow
    simp only [List.mem_cons, List.not_mem_nil, or_false, not_or]
    exact ⟨by decide, by decide, by decide, by decide, hfirst, hsecond⟩
  · simpa using Ne.symm h₅

/-- A string is written on one line. -/
theorem newline_notMem_string (s : String) : newline ∉ string s := by
  have hquote : newline ≠ quote := by decide
  have hescape : newline ∉ escape (Text.asBytes s) := by
    intro hmem
    obtain ⟨b, -, hb⟩ := List.mem_flatMap.1 hmem
    exact newline_notMem_escapeByte b hb
  simp [string, hquote, hescape]

/-- **An object is written on one line** when its values are. -/
theorem newline_notMem_object {members : List (String × List UInt8)}
    (h : ∀ m ∈ members, newline ∉ m.2) : newline ∉ object members := by
  intro hmem
  rw [object, List.mem_cons, List.mem_append, List.mem_singleton] at hmem
  rcases hmem with hbrace | hmem | hbrace
  · exact absurd hbrace (by decide)
  · rcases Text.mem_of_mem_intercalate hmem with hcomma | ⟨written, hwritten, hmem⟩
    · exact absurd hcomma (by decide)
    · obtain ⟨m, hm, rfl⟩ := List.mem_map.1 hwritten
      rw [member, List.mem_append, List.mem_cons] at hmem
      rcases hmem with hname | hcolon | hvalue
      · exact newline_notMem_string m.1 hname
      · exact absurd hcolon (by decide)
      · exact h m hm hvalue
  · exact absurd hbrace (by decide)

/-! ### Lengths -/

/-- How many bytes are written for a text, without the quotation marks. -/
def escapedLength (s : String) : ℕ := (escape (Text.asBytes s)).length

theorem length_string (s : String) : (string s).length = escapedLength s + 2 := by
  simp [string, escapedLength]

theorem escapedLength_append (s t : String) :
    escapedLength (s ++ t) = escapedLength s + escapedLength t := by
  simp [escapedLength, escape]

/-- A byte takes at most six. -/
theorem escapedLength_le (s : String) : escapedLength s ≤ 6 * (Text.asBytes s).length := by
  have hbyte : ∀ b : UInt8, (escapeByte b).length ≤ 6 := by decide +kernel
  rw [escapedLength, escape]
  induction Text.asBytes s with
  | nil => exact Nat.zero_le _
  | cons b bytes ih =>
      have hb := hbyte b
      rw [List.flatMap_cons, List.length_append, List.length_cons]
      omega

/-- A character takes at most six bytes. -/
theorem escapedLength_le_chars (s : String) : escapedLength s ≤ 6 * s.toList.length := by
  have hbyte : ∀ b : UInt8, (escapeByte b).length ≤ 6 := by decide +kernel
  have hcopied : ∀ b : UInt8, 128 ≤ b.toNat → escapeByte b = [b] := by decide +kernel
  have hchar : ∀ c : Char, (escape (String.utf8EncodeChar c)).length ≤ 6 := by
    intro c
    rcases Nat.lt_or_ge c.toNat 128 with hascii | hwide
    · rw [Text.utf8EncodeChar_of_ascii hascii, escape, List.flatMap_singleton]
      exact hbyte _
    · have hall : escape (String.utf8EncodeChar c) = String.utf8EncodeChar c := by
        have hfixed : ∀ bytes : List UInt8, (∀ b ∈ bytes, 128 ≤ b.toNat) →
            escape bytes = bytes := by
          intro bytes hbytes
          rw [escape, List.flatMap_congr fun b hb => hcopied b (hbytes b hb),
            List.flatMap_singleton']
        exact hfixed _ fun b hb => Text.le_of_mem_utf8EncodeChar hwide hb
      rw [hall, String.length_utf8EncodeChar]
      exact (Char.utf8Size_le_four c).trans (by decide)
  rw [escapedLength, Text.asBytes]
  induction s.toList with
  | nil => exact Nat.zero_le _
  | cons c cs ih =>
      have hc := hchar c
      rw [Text.utf8_cons, List.length_cons]
      simp only [escape, List.flatMap_append, List.length_append] at ih hc ⊢
      omega

/-- A byte that is copied. -/
def IsPlain (b : UInt8) : Prop := 0x20 ≤ b ∧ b < 0x80 ∧ b ≠ quote ∧ b ≠ backslash

instance (b : UInt8) : Decidable (IsPlain b) := inferInstanceAs (Decidable (_ ∧ _))

theorem escapeByte_of_isPlain {b : UInt8} (h : IsPlain b) : escapeByte b = [b] := by
  have hcopied : ∀ b : UInt8, IsPlain b → escapeByte b = [b] := by decide +kernel
  exact hcopied b h

/-- Plain text is copied. -/
theorem escapedLength_of_isPlain {s : String} (h : ∀ b ∈ Text.asBytes s, IsPlain b) :
    escapedLength s = (Text.asBytes s).length := by
  have hcopied : ∀ bytes : List UInt8, (∀ b ∈ bytes, IsPlain b) → escape bytes = bytes := by
    intro bytes hbytes
    induction bytes with
    | nil => rfl
    | cons b bytes ih =>
        obtain ⟨hb, hrest⟩ := List.forall_mem_cons.1 hbytes
        have htail := ih hrest
        rw [escape] at htail
        rw [escape, List.flatMap_cons, escapeByte_of_isPlain hb, htail]
        rfl
  rw [escapedLength, hcopied _ h]

/-- A character that is copied. -/
def IsPlainChar (c : Char) : Prop := c.toNat < 128 ∧ IsPlain (Text.asciiByte c)

instance (c : Char) : Decidable (IsPlainChar c) := inferInstanceAs (Decidable (_ ∧ _))

/-- A digit is copied. -/
theorem isPlainChar_of_isDigit {c : Char} (h : c.isDigit = true) : IsPlainChar c := by
  have hdigit : ∀ b : UInt8, 48 ≤ b.toNat → b.toNat ≤ 57 → IsPlain b := by decide +kernel
  obtain ⟨hlow, hhigh⟩ := Text.isDigit_iff.1 h
  have hbyte : (Text.asciiByte c).toNat = c.toNat := by
    rw [Text.asciiByte, UInt8.toNat_ofNat', Nat.mod_eq_of_lt (by omega)]
  exact ⟨by omega, hdigit _ (hbyte ▸ hlow) (hbyte ▸ hhigh)⟩

/-- Plain text takes a byte for every character. -/
theorem escapedLength_of_plainChars {s : String} (h : ∀ c ∈ s.toList, IsPlainChar c) :
    escapedLength s = s.toList.length := by
  have hascii : ∀ c ∈ s.toList, c.toNat < 128 := fun c hc => (h c hc).1
  rw [escapedLength_of_isPlain, Text.length_asBytes_of_ascii hascii]
  intro b hb
  rw [Text.asBytes, Text.utf8_of_ascii hascii] at hb
  obtain ⟨c, hc, rfl⟩ := List.mem_map.1 hb
  exact (h c hc).2

/-! ### Reading a string back -/

/-- The byte for which a piece of a string was written, and the rest; nothing at the end of the
string. -/
def unescapeHead : List UInt8 → Option (UInt8 × List UInt8)
  | [] => none
  | b :: rest =>
      if b = quote then none
      else if b ≠ backslash then some (b, rest)
      else
        match rest with
        | 0x75 :: _ :: _ :: high :: low :: rest =>
            some ((if high < 0x40 then high - 0x30 else high - 0x57) * 16 +
              (if low < 0x40 then low - 0x30 else low - 0x57), rest)
        | 0x62 :: rest => some (0x08, rest)
        | 0x74 :: rest => some (0x09, rest)
        | 0x6E :: rest => some (newline, rest)
        | 0x66 :: rest => some (0x0C, rest)
        | 0x72 :: rest => some (0x0D, rest)
        | b :: rest => some (b, rest)
        | [] => none

/-- What is written for a byte is read back. -/
theorem unescapeHead_escapeByte (b : UInt8) (rest : List UInt8) :
    unescapeHead (escapeByte b ++ rest) = some (b, rest) := by
  have hhex : ∀ b : UInt8, b < 0x20 →
      (if hexDigit (b / 16) < 0x40 then hexDigit (b / 16) - 0x30 else hexDigit (b / 16) - 0x57) *
          16 +
        (if hexDigit (b % 16) < 0x40 then hexDigit (b % 16) - 0x30
          else hexDigit (b % 16) - 0x57) = b := by
    decide +kernel
  unfold escapeByte
  split_ifs with h₁ h₂ h₃ h₄ h₅ h₆ h₇ h₈
  · rw [h₁]
    rfl
  · rw [h₂]
    rfl
  · rw [h₃]
    rfl
  · rw [h₄]
    rfl
  · rw [h₅]
    rfl
  · rw [h₆]
    rfl
  · rw [h₇]
    rfl
  · exact congrArg (fun c => some (c, rest)) (hhex b h₈)
  · simp [unescapeHead, h₁, h₂]

/-- The bytes of a string up to the quotation mark that closes it, and what follows. -/
def unescape : ℕ → List UInt8 → Option (List UInt8 × List UInt8)
  | 0, _ => none
  | _ + 1, [] => none
  | fuel + 1, b :: bytes =>
      if b = quote then some ([], bytes)
      else do
        let (first, bytes) ← unescapeHead (b :: bytes)
        let (read, rest) ← unescape fuel bytes
        some (first :: read, rest)

/-- What is written for a byte is not empty, and no quotation mark begins it. -/
theorem escapeByte_eq_cons (b : UInt8) :
    ∃ first rest, escapeByte b = first :: rest ∧ first ≠ quote := by
  have hback : backslash ≠ quote := by decide
  unfold escapeByte
  split_ifs with hquote
  all_goals first | exact ⟨_, _, rfl, hback⟩ | exact ⟨b, [], rfl, hquote⟩

theorem unescape_escape {fuel : ℕ} {s : List UInt8} (h : s.length < fuel) (rest : List UInt8) :
    unescape fuel (escape s ++ quote :: rest) = some (s, rest) := by
  induction s generalizing fuel with
  | nil =>
      obtain ⟨fuel, rfl⟩ := Nat.exists_eq_succ_of_ne_zero (Nat.ne_of_gt h)
      rfl
  | cons b s ih =>
      obtain ⟨fuel, rfl⟩ := Nat.exists_eq_succ_of_ne_zero (Nat.ne_of_gt (Nat.zero_lt_of_lt h))
      obtain ⟨first, written, hwritten, hfirst⟩ := escapeByte_eq_cons b
      have hhead := unescapeHead_escapeByte b (escape s ++ quote :: rest)
      rw [hwritten] at hhead
      rw [escape, List.flatMap_cons, List.append_assoc, hwritten, List.cons_append, unescape,
        if_neg hfirst]
      rw [escape, List.cons_append] at hhead
      rw [hhead]
      have hrest := ih (Nat.lt_of_succ_lt_succ h)
      rw [escape] at hrest
      simp [hrest]

/-- A text from its bytes. -/
def fromUtf8 (bytes : List UInt8) : Option String := String.fromUTF8? bytes.toByteArray

theorem fromUtf8_asBytes (s : String) : fromUtf8 (Text.asBytes s) = some s := by
  have hbytes : (Text.asBytes s).toByteArray = s.toByteArray := by
    conv_rhs => rw [← String.ofList_toList (s := s), String.toByteArray_ofList]
    rfl
  rw [fromUtf8, hbytes, String.fromUTF8?, dif_pos s.isValidUTF8]
  rfl

/-- A string at the beginning of some bytes, and what follows it. -/
def readString : List UInt8 → Option (String × List UInt8)
  | [] => none
  | b :: bytes =>
      if b = quote then do
        let (read, rest) ← unescape (bytes.length + 1) bytes
        let s ← fromUtf8 read
        some (s, rest)
      else none

theorem length_le_escape (s : List UInt8) : s.length ≤ (escape s).length := by
  induction s with
  | nil => exact Nat.zero_le _
  | cons b s ih =>
      obtain ⟨first, written, hwritten, -⟩ := escapeByte_eq_cons b
      rw [escape, List.flatMap_cons, hwritten]
      rw [escape] at ih
      simp only [List.length_cons, List.length_append]
      omega

/-- **What is written for a string is read back**, up to what follows it. -/
theorem readString_string (s : String) (rest : List UInt8) :
    readString (string s ++ rest) = some (s, rest) := by
  have hread : unescape ((escape (Text.asBytes s) ++ quote :: rest).length + 1)
      (escape (Text.asBytes s) ++ quote :: rest) = some (Text.asBytes s, rest) := by
    refine unescape_escape ?_ rest
    have hle := length_le_escape (Text.asBytes s)
    rw [List.length_append]
    omega
  have hstring : string s ++ rest = quote :: (escape (Text.asBytes s) ++ quote :: rest) := by
    rw [string, List.cons_append, List.append_assoc]
    rfl
  rw [hstring, readString, if_pos rfl, hread]
  simp [fromUtf8_asBytes]

/-- What follows some bytes that must come next. -/
def skip (written bytes : List UInt8) : Option (List UInt8) :=
  if written <+: bytes then some (bytes.drop written.length) else none

theorem skip_append (written rest : List UInt8) : skip written (written ++ rest) = some rest := by
  rw [skip, if_pos (List.prefix_append written rest), List.drop_left]

/-! ### Numbers -/

/-- A number, in digits. -/
def number (n : ℕ) : List UInt8 := (Nat.toDigits 10 n).map Text.asciiByte

/-- The byte of a digit. -/
def isDigitByte (b : UInt8) : Bool := (Char.ofNat b.toNat).isDigit

/-- A number at the beginning of some bytes, and what follows it. -/
def readNumber (bytes : List UInt8) : Option (ℕ × List UInt8) :=
  if bytes.takeWhile isDigitByte = [] then none
  else some (Nat.ofDigitChars 10
    ((bytes.takeWhile isDigitByte).map fun b => Char.ofNat b.toNat) 0, bytes.dropWhile isDigitByte)

theorem ofNat_toNat_asciiByte {c : Char} (h : c.isDigit = true) :
    Char.ofNat (Text.asciiByte c).toNat = c := by
  have hrange := Text.isDigit_iff.1 h
  have hlt : c.toNat < 256 := by omega
  rw [Text.asciiByte, UInt8.toNat_ofNat', Nat.mod_eq_of_lt hlt, Char.ofNat_toNat]

theorem isDigitByte_of_mem_number {n : ℕ} {b : UInt8} (h : b ∈ number n) :
    isDigitByte b = true := by
  obtain ⟨c, hc, rfl⟩ := List.mem_map.1 h
  have hdigit := Nat.isDigit_of_mem_toDigits (by decide) (by decide) hc
  rw [isDigitByte, ofNat_toNat_asciiByte hdigit, hdigit]

/-- **A number is read back**, up to what follows it. -/
theorem readNumber_number (n : ℕ) {rest : List UInt8}
    (h : ∀ b ∈ rest.head?, isDigitByte b = false) :
    readNumber (number n ++ rest) = some (n, rest) := by
  have hnone : rest.takeWhile isDigitByte = [] ∧ rest.dropWhile isDigitByte = rest := by
    cases rest with
    | nil => exact ⟨rfl, rfl⟩
    | cons b rest =>
        have hb := h b rfl
        exact ⟨by simp [hb], by simp [hb]⟩
  have htake : (number n ++ rest).takeWhile isDigitByte = number n := by
    rw [List.takeWhile_append_of_pos fun b hb => isDigitByte_of_mem_number hb, hnone.1,
      List.append_nil]
  have hdrop : (number n ++ rest).dropWhile isDigitByte = rest := by
    rw [List.dropWhile_append_of_pos fun b hb => isDigitByte_of_mem_number hb, hnone.2]
  have hne : number n ≠ [] := by
    rw [number, Ne, List.map_eq_nil_iff]
    exact Nat.toDigits_ne_nil
  have hchars : (number n).map (fun b => Char.ofNat b.toNat) = Nat.toDigits 10 n := by
    rw [number, List.map_map]
    conv_rhs => rw [← List.map_id (Nat.toDigits 10 n)]
    refine List.map_congr_left fun c hc => ?_
    exact ofNat_toNat_asciiByte (Nat.isDigit_of_mem_toDigits (by decide) (by decide) hc)
  rw [readNumber, htake, hdrop, if_neg hne, hchars, Nat.ofDigitChars_ten_toDigits]

/-! ### Numbers that may be missing -/

def null : List UInt8 := [0x6E, 0x75, 0x6C, 0x6C]

/-- A number, or `null`. -/
def optional : Option ℕ → List UInt8
  | none => null
  | some n => number n

/-- A number below a power of ten has no more digits than its exponent. -/
theorem length_number_le {n k : ℕ} (hk : 0 < k) (h : n < 10 ^ k) : (number n).length ≤ k := by
  rw [number, List.length_map]
  exact (Nat.length_toDigits_le_iff (by decide) hk).2 h

/-! ### Texts that may be missing, and arrays -/

/-- A string, or `null`. -/
def optionalString : Option String → List UInt8
  | none => null
  | some s => string s

/-- An array with its values in order. -/
def array (values : List (List UInt8)) : List UInt8 :=
  0x5B :: (List.intercalate [0x2C] values ++ [0x5D])

/-! ### The length of what is written -/

/-- An array takes no more than a byte for every value, and two. -/
theorem length_array_le (values : List (List UInt8)) :
    (array values).length ≤ (values.map List.length).sum + values.length + 2 := by
  cases values with
  | nil => decide
  | cons value values =>
      have hlength := Text.length_intercalate_add_one 0x2C (List.cons_ne_nil value values)
      simp only [array, List.length_cons, List.length_append, List.length_nil] at hlength ⊢
      omega

/-- An array takes at least what its values take. -/
theorem le_length_array (values : List (List UInt8)) :
    (values.map List.length).sum ≤ (array values).length := by
  cases values with
  | nil => exact Nat.zero_le _
  | cons value values =>
      have hlength := Text.length_intercalate_add_one 0x2C (List.cons_ne_nil value values)
      simp only [array, List.length_cons, List.length_append, List.length_nil] at hlength ⊢
      omega

/-- What an object takes besides its values. -/
def frame (names : List String) : ℕ := (object (names.map fun name => (name, []))).length

/-- **An object takes what its names take, and its values.** -/
theorem length_object (members : List (String × List UInt8)) :
    (object members).length =
      frame (members.map Prod.fst) + (members.map fun m => m.2.length).sum := by
  cases members with
  | nil => rfl
  | cons m members =>
      have hmember : ∀ m : String × List UInt8,
          (member m).length = (member (m.1, [])).length + m.2.length := by
        intro m
        simp only [member, List.length_append, List.length_cons, List.length_nil]
        omega
      have hsum : ∀ members : List (String × List UInt8),
          ((members.map member).map List.length).sum =
            ((members.map fun m => member (m.1, [])).map List.length).sum +
              (members.map fun m => m.2.length).sum := by
        intro members
        induction members with
        | nil => rfl
        | cons m members ih =>
            have hm := hmember m
            simp only [List.map_cons, List.sum_cons] at ih ⊢
            omega
      have hwritten := Text.length_intercalate_add_one 0x2C
        (by simp : (m :: members).map member ≠ [])
      have hempty := Text.length_intercalate_add_one 0x2C
        (by simp : (m :: members).map (fun m => member (m.1, [])) ≠ [])
      have hsplit := hsum (m :: members)
      have hnames : ((m :: members).map Prod.fst).map (fun name => (name, ([] : List UInt8))) =
          (m :: members).map fun m => (m.1, []) := by rw [List.map_map]; rfl
      have hframe : frame ((m :: members).map Prod.fst) =
          (List.intercalate [0x2C] ((m :: members).map fun m => member (m.1, []))).length + 2 := by
        rw [frame, hnames, object, List.map_map]
        simp [Function.comp_def]
      simp only [List.length_map] at hwritten hempty
      rw [hframe, object]
      simp only [List.length_cons, List.length_append, List.length_nil] at hwritten hempty hsplit ⊢
      omega

/-- An object with texts takes six bytes more than the texts for every member, and two. -/
theorem length_object_string_le (members : List (String × String)) :
    (object (members.map fun m => (m.1, string m.2))).length ≤
      (members.map fun m => escapedLength m.1 + escapedLength m.2 + 6).sum + 2 := by
  have hsum : ((members.map fun m => member (m.1, string m.2)).map List.length).sum +
      members.length = (members.map fun m => escapedLength m.1 + escapedLength m.2 + 6).sum := by
    induction members with
    | nil => rfl
    | cons m members ih =>
        simp only [List.map_cons, List.sum_cons, List.length_cons, member, List.length_append,
          length_string] at ih ⊢
        omega
  cases members with
  | nil => decide
  | cons m members =>
      have hwritten := Text.length_intercalate_add_one 0x2C
        (by simp : (m :: members).map (fun m => member (m.1, string m.2)) ≠ [])
      simp only [List.length_map] at hwritten
      rw [object, List.map_map]
      simp only [Function.comp_def, List.length_cons, List.length_append,
        List.length_nil] at hwritten hsum ⊢
      omega

end Json
