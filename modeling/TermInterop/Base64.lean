/-
Base64 as a strict, canonical codec.

A Base64 codec is fixed by an alphabet of sixty-four characters and by the choice between padded
and unpadded output.  This module transcribes RFC 4648 for both choices and proves the two laws a
consumer relies on: decoding inverts encoding, and a string that decodes at all is the encoding of
what it decodes to.  The second law is what makes the codec *canonical*: padding of the wrong
length and nonzero trailing bits are refused, so no byte string has two spellings.

Consumers are written against the interfaces `Base64.Codec` and `Base64.CanonicalCodec`, which
carry these laws as fields, and never against the transcription itself.

Main definitions:

* `Base64.Alphabet` — sixty-four distinct characters, none of them the padding character;
* `Base64.encodeWith`, `Base64.decodeWith` — the codec of an alphabet;
* `Base64.Codec`, `Base64.CanonicalCodec` — what consumers may assume;
* `Base64.standard`, `Base64.urlSafeNoPad` — the two profiles.

Main results:

* `Base64.decodeWith_encodeWith` — decoding inverts encoding;
* `Base64.encodeWith_of_decodeWith` — **an accepted string is canonical**;
* `Base64.length_encodeWith_le` — how long an encoding can be.
-/

import TermInterop.Text

set_option relaxedAutoImplicit false
set_option autoImplicit false

namespace Base64

/-! ### Alphabets -/

/-- The character that fills up the last quantum of a padded encoding. -/
def padChar : Char := '='

/-- Sixty-four distinct characters, none of which is the padding character. -/
structure Alphabet where
  /-- The character of a six-bit value. -/
  digit : Fin 64 → Char
  digit_injective : Function.Injective digit
  digit_ne_pad : ∀ v, digit v ≠ padChar
  digit_ascii : ∀ v, (digit v).toNat < 128

namespace Alphabet

variable (A : Alphabet)

/-- The six-bit value of a character of the alphabet. -/
def value (c : Char) : Option (Fin 64) := (List.finRange 64).find? fun v => A.digit v == c

@[simp] theorem value_digit (v : Fin 64) : A.value (A.digit v) = some v := by
  have hsome : (A.value (A.digit v)).isSome := by
    rw [value, List.find?_isSome]
    exact ⟨v, List.mem_finRange v, by simp⟩
  obtain ⟨w, hw⟩ := Option.isSome_iff_exists.1 hsome
  have heq : A.digit w = A.digit v := by
    simpa using List.find?_some (p := fun u => A.digit u == A.digit v) hw
  rw [hw, A.digit_injective heq]

theorem digit_of_value {c : Char} {v : Fin 64} (h : A.value c = some v) : A.digit v = c := by
  simpa using List.find?_some (p := fun u => A.digit u == c) h

@[simp] theorem value_padChar : A.value padChar = none := by
  rw [value, List.find?_eq_none]
  intro v _
  simpa using A.digit_ne_pad v

end Alphabet

/-! ### Encoding and decoding -/

/-- The six-bit value of a number below sixty-four. -/
def sextet (n : ℕ) : Fin 64 := Fin.ofNat 64 n

@[simp] theorem sextet_val (n : ℕ) : (sextet n : ℕ) = n % 64 := rfl

/-- The padding of an incomplete quantum: `n` padding characters, or none. -/
def padding (pad : Bool) (n : ℕ) : List Char := if pad then List.replicate n padChar else []

/-- **Encoding**: three bytes become four characters, and an incomplete quantum of one or two
bytes becomes two or three characters, followed by padding. -/
def encodeWith (A : Alphabet) (pad : Bool) : List UInt8 → List Char
  | [] => []
  | [a] =>
      [A.digit (sextet (a.toNat / 4)), A.digit (sextet (a.toNat % 4 * 16))] ++ padding pad 2
  | [a, b] =>
      [A.digit (sextet (a.toNat / 4)), A.digit (sextet (a.toNat % 4 * 16 + b.toNat / 16)),
        A.digit (sextet (b.toNat % 16 * 4))] ++ padding pad 1
  | a :: b :: c :: rest =>
      A.digit (sextet (a.toNat / 4)) :: A.digit (sextet (a.toNat % 4 * 16 + b.toNat / 16)) ::
        A.digit (sextet (b.toNat % 16 * 4 + c.toNat / 64)) :: A.digit (sextet (c.toNat % 64)) ::
          encodeWith A pad rest

/-- The byte carried by a quantum of two characters, whose four trailing bits must be zero. -/
def tailOne (A : Alphabet) (w x : Char) : Option (List UInt8) := do
  let p ← A.value w
  let q ← A.value x
  if (q : ℕ) % 16 = 0 then some [UInt8.ofNat (p * 4 + q / 16)] else none

/-- The bytes carried by a quantum of three characters, whose two trailing bits must be zero. -/
def tailTwo (A : Alphabet) (w x y : Char) : Option (List UInt8) := do
  let p ← A.value w
  let q ← A.value x
  let r ← A.value y
  if (r : ℕ) % 4 = 0 then
    some [UInt8.ofNat (p * 4 + q / 16), UInt8.ofNat (q % 16 * 16 + r / 4)]
  else none

/-- The bytes carried by a full quantum. -/
def quantum (A : Alphabet) (w x y z : Char) : Option (List UInt8) := do
  let p ← A.value w
  let q ← A.value x
  let r ← A.value y
  let s ← A.value z
  some [UInt8.ofNat (p * 4 + q / 16), UInt8.ofNat (q % 16 * 16 + r / 4),
    UInt8.ofNat (r % 4 * 64 + s)]

/-- **Decoding**, which refuses a foreign character, a padding of the wrong length and trailing
bits that are not zero. -/
def decodeWith (A : Alphabet) (pad : Bool) : List Char → Option (List UInt8)
  | [] => some []
  | [w, x] => if pad then none else tailOne A w x
  | [w, x, y] => if pad then none else tailTwo A w x y
  | w :: x :: y :: z :: rest =>
      if pad ∧ rest = [] ∧ z = padChar then
        if y = padChar then tailOne A w x else tailTwo A w x y
      else do
        let g ← quantum A w x y z
        let bytes ← decodeWith A pad rest
        some (g ++ bytes)
  | _ => none

/-! ### Decoding inverts encoding -/

private theorem byte_lt (a : UInt8) : a.toNat < 256 := a.toNat_lt

theorem tailOne_encode (A : Alphabet) (a : UInt8) :
    tailOne A (A.digit (sextet (a.toNat / 4))) (A.digit (sextet (a.toNat % 4 * 16))) =
      some [a] := by
  have ha := byte_lt a
  have hbits : a.toNat % 4 * 16 % 64 % 16 = 0 := by omega
  have hbyte : a.toNat / 4 % 64 * 4 + a.toNat % 4 * 16 % 64 / 16 = a.toNat := by omega
  simp only [tailOne, Alphabet.value_digit, Option.bind_eq_bind, Option.bind_some, sextet_val,
    hbits, if_true, hbyte, UInt8.ofNat_toNat]

theorem tailTwo_encode (A : Alphabet) (a b : UInt8) :
    tailTwo A (A.digit (sextet (a.toNat / 4)))
      (A.digit (sextet (a.toNat % 4 * 16 + b.toNat / 16)))
      (A.digit (sextet (b.toNat % 16 * 4))) = some [a, b] := by
  have ha := byte_lt a
  have hb := byte_lt b
  have hbits : b.toNat % 16 * 4 % 64 % 4 = 0 := by omega
  have hfst : a.toNat / 4 % 64 * 4 + (a.toNat % 4 * 16 + b.toNat / 16) % 64 / 16 = a.toNat := by
    omega
  have hsnd : (a.toNat % 4 * 16 + b.toNat / 16) % 64 % 16 * 16 + b.toNat % 16 * 4 % 64 / 4 =
      b.toNat := by omega
  simp only [tailTwo, Alphabet.value_digit, Option.bind_eq_bind, Option.bind_some, sextet_val,
    hbits, if_true, hfst, hsnd, UInt8.ofNat_toNat]

theorem quantum_encode (A : Alphabet) (a b c : UInt8) :
    quantum A (A.digit (sextet (a.toNat / 4)))
      (A.digit (sextet (a.toNat % 4 * 16 + b.toNat / 16)))
      (A.digit (sextet (b.toNat % 16 * 4 + c.toNat / 64)))
      (A.digit (sextet (c.toNat % 64))) = some [a, b, c] := by
  have ha := byte_lt a
  have hb := byte_lt b
  have hc := byte_lt c
  have hfst : a.toNat / 4 % 64 * 4 + (a.toNat % 4 * 16 + b.toNat / 16) % 64 / 16 = a.toNat := by
    omega
  have hsnd : (a.toNat % 4 * 16 + b.toNat / 16) % 64 % 16 * 16 +
      (b.toNat % 16 * 4 + c.toNat / 64) % 64 / 4 = b.toNat := by omega
  have hthd : (b.toNat % 16 * 4 + c.toNat / 64) % 64 % 4 * 64 + c.toNat % 64 % 64 = c.toNat := by
    omega
  simp only [quantum, Alphabet.value_digit, Option.bind_eq_bind, Option.bind_some, sextet_val,
    hfst, hsnd, hthd, UInt8.ofNat_toNat]

/-- **Decoding inverts encoding.** -/
theorem decodeWith_encodeWith (A : Alphabet) (pad : Bool) (bytes : List UInt8) :
    decodeWith A pad (encodeWith A pad bytes) = some bytes := by
  induction bytes using encodeWith.induct with
  | case1 => rfl
  | case2 a => cases pad <;> simp [encodeWith, padding, decodeWith, tailOne_encode]
  | case3 a b =>
      cases pad with
      | false => simp [encodeWith, padding, decodeWith, tailTwo_encode]
      | true => simp [encodeWith, padding, decodeWith, tailTwo_encode, A.digit_ne_pad]
  | case4 a b c rest ih =>
      simp [encodeWith, decodeWith, quantum_encode, A.digit_ne_pad, ih]

/-! ### An accepted string is canonical -/

private theorem digit_eq {A : Alphabet} {c : Char} {v : Fin 64} (h : A.value c = some v) {n : ℕ}
    (hn : n = v) : A.digit (sextet n) = c := by
  have hv : sextet n = v := Fin.ext (by rw [sextet_val, hn]; exact Nat.mod_eq_of_lt v.isLt)
  rw [hv, A.digit_of_value h]

theorem encode_of_tailOne {A : Alphabet} (pad : Bool) {w x : Char} {bytes : List UInt8}
    (h : tailOne A w x = some bytes) : encodeWith A pad bytes = [w, x] ++ padding pad 2 := by
  simp only [tailOne, Option.bind_eq_bind, Option.bind_eq_some_iff] at h
  obtain ⟨p, hp, q, hq, h⟩ := h
  split at h
  · rename_i hbits
    obtain rfl := Option.some_inj.1 h
    have hplt := p.isLt
    have hqlt := q.isLt
    have hnat : (UInt8.ofNat (p * 4 + q / 16)).toNat = (p : ℕ) * 4 + q / 16 := by
      rw [UInt8.toNat_ofNat_of_lt']; simp only [UInt8.size]; omega
    rw [encodeWith, hnat, digit_eq hp (by omega), digit_eq hq (by omega)]
  · exact absurd h (by simp)

theorem encode_of_tailTwo {A : Alphabet} (pad : Bool) {w x y : Char} {bytes : List UInt8}
    (h : tailTwo A w x y = some bytes) :
    encodeWith A pad bytes = [w, x, y] ++ padding pad 1 := by
  simp only [tailTwo, Option.bind_eq_bind, Option.bind_eq_some_iff] at h
  obtain ⟨p, hp, q, hq, r, hr, h⟩ := h
  split at h
  · rename_i hbits
    obtain rfl := Option.some_inj.1 h
    have hplt := p.isLt
    have hqlt := q.isLt
    have hrlt := r.isLt
    have hfst : (UInt8.ofNat (p * 4 + q / 16)).toNat = (p : ℕ) * 4 + q / 16 := by
      rw [UInt8.toNat_ofNat_of_lt']; simp only [UInt8.size]; omega
    have hsnd : (UInt8.ofNat (q % 16 * 16 + r / 4)).toNat = (q : ℕ) % 16 * 16 + r / 4 := by
      rw [UInt8.toNat_ofNat_of_lt']; simp only [UInt8.size]; omega
    rw [encodeWith, hfst, hsnd, digit_eq hp (by omega), digit_eq hq (by omega),
      digit_eq hr (by omega)]
  · exact absurd h (by simp)

theorem encode_of_quantum {A : Alphabet} {pad : Bool} {w x y z : Char} {bytes : List UInt8}
    (h : quantum A w x y z = some bytes) (rest : List UInt8) :
    encodeWith A pad (bytes ++ rest) = w :: x :: y :: z :: encodeWith A pad rest := by
  simp only [quantum, Option.bind_eq_bind, Option.bind_eq_some_iff, Option.some_inj] at h
  obtain ⟨p, hp, q, hq, r, hr, s, hs, rfl⟩ := h
  have hplt := p.isLt
  have hqlt := q.isLt
  have hrlt := r.isLt
  have hslt := s.isLt
  have hfst : (UInt8.ofNat (p * 4 + q / 16)).toNat = (p : ℕ) * 4 + q / 16 := by
    rw [UInt8.toNat_ofNat_of_lt']; simp only [UInt8.size]; omega
  have hsnd : (UInt8.ofNat (q % 16 * 16 + r / 4)).toNat = (q : ℕ) % 16 * 16 + r / 4 := by
    rw [UInt8.toNat_ofNat_of_lt']; simp only [UInt8.size]; omega
  have hthd : (UInt8.ofNat (r % 4 * 64 + s)).toNat = (r : ℕ) % 4 * 64 + s := by
    rw [UInt8.toNat_ofNat_of_lt']; simp only [UInt8.size]; omega
  simp only [List.cons_append, List.nil_append, encodeWith, hfst, hsnd, hthd]
  rw [digit_eq hp (by omega), digit_eq hq (by omega), digit_eq hr (by omega),
    digit_eq hs (by omega)]

/-- **An accepted string is canonical**: it is the encoding of what it decodes to. -/
theorem encodeWith_of_decodeWith {A : Alphabet} {pad : Bool} {text : List Char}
    {bytes : List UInt8} (h : decodeWith A pad text = some bytes) :
    encodeWith A pad bytes = text := by
  fun_induction decodeWith A pad text generalizing bytes with
  | case1 => obtain rfl := Option.some_inj.1 h; rfl
  | case2 w x hpad => cases h
  | case3 w x hpad => simpa [padding, hpad] using encode_of_tailOne pad h
  | case4 w x y hpad => cases h
  | case5 w x y hpad => simpa [padding, hpad] using encode_of_tailTwo pad h
  | case6 w x z rest hlast =>
      obtain ⟨hpad, rfl, rfl⟩ := hlast
      simpa [padding, hpad, List.replicate] using encode_of_tailOne pad h
  | case7 w x y z rest hlast hy =>
      obtain ⟨hpad, rfl, rfl⟩ := hlast
      simpa [padding, hpad, List.replicate] using encode_of_tailTwo pad h
  | case8 w x y z rest hlast ih =>
      simp only [Option.bind_eq_bind, Option.bind_eq_some_iff, Option.some_inj] at h
      obtain ⟨g, hg, more, hmore, rfl⟩ := h
      rw [encode_of_quantum hg, ih hmore]
  | case9 => cases h

/-! ### The shape of an encoding -/

/-- An encoding has at most four characters for each started group of three bytes. -/
theorem length_encodeWith_le (A : Alphabet) (pad : Bool) (bytes : List UInt8) :
    (encodeWith A pad bytes).length ≤ 4 * ((bytes.length + 2) / 3) := by
  induction bytes using encodeWith.induct with
  | case1 => exact Nat.zero_le _
  | case2 a => cases pad <;> simp [encodeWith, padding]
  | case3 a b => cases pad <;> simp [encodeWith, padding]
  | case4 a b c rest ih => simp only [encodeWith, List.length_cons]; omega

/-- A padded encoding consists of whole groups of four characters. -/
theorem length_encodeWith_padded (A : Alphabet) (bytes : List UInt8) :
    (encodeWith A true bytes).length = 4 * ((bytes.length + 2) / 3) := by
  induction bytes using encodeWith.induct with
  | case1 => rfl
  | case2 a => simp [encodeWith, padding]
  | case3 a b => simp [encodeWith, padding]
  | case4 a b c rest ih => simp only [encodeWith, List.length_cons]; omega

/-- The characters of an encoding are digits of the alphabet, or padding. -/
theorem mem_encodeWith {A : Alphabet} {pad : Bool} {bytes : List UInt8} {c : Char}
    (h : c ∈ encodeWith A pad bytes) : (∃ v, c = A.digit v) ∨ pad ∧ c = padChar := by
  induction bytes using encodeWith.induct with
  | case1 => simp [encodeWith] at h
  | case2 a => cases pad <;> simp [encodeWith, padding] at h <;> grind
  | case3 a b => cases pad <;> simp [encodeWith, padding] at h <;> grind
  | case4 a b c rest ih =>
      simp only [encodeWith, List.mem_cons] at h
      rcases h with h | h | h | h | h
      · exact Or.inl ⟨_, h⟩
      · exact Or.inl ⟨_, h⟩
      · exact Or.inl ⟨_, h⟩
      · exact Or.inl ⟨_, h⟩
      · exact ih h

/-- An encoding is ASCII text. -/
theorem ascii_encodeWith (A : Alphabet) (pad : Bool) (bytes : List UInt8) :
    ∀ c ∈ encodeWith A pad bytes, c.toNat < 128 := by
  intro c hc
  obtain ⟨v, rfl⟩ | ⟨-, rfl⟩ := mem_encodeWith hc
  · exact A.digit_ascii v
  · decide

/-! ### What consumers may assume -/

/-- A Base64 codec whose decoding inverts its encoding. -/
structure Codec where
  /-- The text of a byte string. -/
  encode : List UInt8 → String
  /-- The byte string of a text, or nothing when the text is refused. -/
  decode : String → Option (List UInt8)
  decode_encode : ∀ bytes, decode (encode bytes) = some bytes
  /-- Four ASCII characters suffice for each started group of three bytes. -/
  length_encode_le : ∀ bytes, (Text.asBytes (encode bytes)).length ≤ 4 * ((bytes.length + 2) / 3)

attribute [simp] Codec.decode_encode

namespace Codec

variable (C : Codec)

/-- No two byte strings share an encoding. -/
theorem encode_injective : Function.Injective C.encode := by
  intro x y h
  have hx := C.decode_encode x
  rw [h, C.decode_encode] at hx
  exact (Option.some_inj.1 hx).symm

end Codec

/-- A strict, canonical codec over the unpadded alphabet of the URL-safe profile. -/
structure CanonicalCodec extends Codec where
  encode_of_decode : ∀ text bytes, decode text = some bytes → encode bytes = text
  /-- Every character is a letter, a digit, a hyphen or a low line. -/
  url_safe : ∀ bytes, ∀ c ∈ (encode bytes).toList, c.isAlphanum ∨ c = '-' ∨ c = '_'

/-! ### The two profiles -/

/-- The character at a position of a table. -/
def tableDigit (table : List Char) (v : Fin 64) : Char := table.getD v padChar

/-- The table of RFC 4648 §4. -/
def standardTable : List Char :=
  "ABCDEFGHIJKLMNOPQRSTUVWXYZabcdefghijklmnopqrstuvwxyz0123456789+/".toList

/-- The table of RFC 4648 §5. -/
def urlSafeTable : List Char :=
  "ABCDEFGHIJKLMNOPQRSTUVWXYZabcdefghijklmnopqrstuvwxyz0123456789-_".toList

/-- The alphabet of RFC 4648 §4. -/
def standardAlphabet : Alphabet where
  digit := tableDigit standardTable
  digit_injective := by decide +kernel
  digit_ne_pad := by decide +kernel
  digit_ascii := by decide +kernel

/-- The alphabet of RFC 4648 §5. -/
def urlSafeAlphabet : Alphabet where
  digit := tableDigit urlSafeTable
  digit_injective := by decide +kernel
  digit_ne_pad := by decide +kernel
  digit_ascii := by decide +kernel

/-- The codec of an alphabet, on strings. -/
def encodeString (A : Alphabet) (pad : Bool) (bytes : List UInt8) : String :=
  String.ofList (encodeWith A pad bytes)

/-- The decoder of an alphabet, on strings. -/
def decodeString (A : Alphabet) (pad : Bool) (text : String) : Option (List UInt8) :=
  decodeWith A pad text.toList

theorem decodeString_encodeString (A : Alphabet) (pad : Bool) (bytes : List UInt8) :
    decodeString A pad (encodeString A pad bytes) = some bytes := by
  rw [decodeString, encodeString, String.toList_ofList, decodeWith_encodeWith]

theorem length_encodeString_le (A : Alphabet) (pad : Bool) (bytes : List UInt8) :
    (Text.asBytes (encodeString A pad bytes)).length ≤ 4 * ((bytes.length + 2) / 3) := by
  have hascii : ∀ c ∈ (encodeString A pad bytes).toList, c.toNat < 128 := by
    rw [encodeString, String.toList_ofList]
    exact ascii_encodeWith A pad bytes
  rw [Text.length_asBytes_of_ascii hascii, encodeString, String.toList_ofList]
  exact length_encodeWith_le A pad bytes

/-- **Standard Base64**: the first alphabet, padded. -/
def standard : Codec where
  encode := encodeString standardAlphabet true
  decode := decodeString standardAlphabet true
  decode_encode := decodeString_encodeString standardAlphabet true
  length_encode_le := length_encodeString_le standardAlphabet true

theorem ascii_standard_encode (bytes : List UInt8) :
    ∀ c ∈ (standard.encode bytes).toList, c.toNat < 128 := by
  intro c hc
  refine ascii_encodeWith standardAlphabet true bytes c ?_
  simpa [standard, encodeString] using hc

/-- The padded encoding consists of whole groups of four bytes. -/
theorem length_standard_encode (bytes : List UInt8) :
    (Text.asBytes (standard.encode bytes)).length = 4 * ((bytes.length + 2) / 3) := by
  rw [Text.length_asBytes_of_ascii (ascii_standard_encode bytes)]
  simp only [standard, encodeString, String.toList_ofList]
  exact length_encodeWith_padded standardAlphabet bytes

/-- Every character of the second alphabet is safe inside a URL component. -/
theorem urlSafe_digit : ∀ v : Fin 64, (urlSafeAlphabet.digit v).isAlphanum ∨
    urlSafeAlphabet.digit v = '-' ∨ urlSafeAlphabet.digit v = '_' := by
  decide +kernel

/-- **URL-safe Base64 without padding**: the second alphabet, unpadded. -/
def urlSafeNoPad : CanonicalCodec where
  encode := encodeString urlSafeAlphabet false
  decode := decodeString urlSafeAlphabet false
  decode_encode := decodeString_encodeString urlSafeAlphabet false
  length_encode_le := length_encodeString_le urlSafeAlphabet false
  encode_of_decode text bytes h := by
    rw [encodeString, encodeWith_of_decodeWith h, String.ofList_toList]
  url_safe bytes c hc := by
    rw [encodeString, String.toList_ofList] at hc
    obtain ⟨v, rfl⟩ | h := mem_encodeWith hc
    · exact urlSafe_digit v
    · exact absurd h.1 (by simp)

end Base64
