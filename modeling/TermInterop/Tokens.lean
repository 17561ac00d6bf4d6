/-
The code of a fresh token.

`random_token` packs its eight random bytes into one 128-bit accumulator by shifts, and then takes
thirteen groups of five bits off the low end, filling the token from its last character to its
first.  `packBytes` and `emitCharacters` are these two loops on the machine word.  The accumulator
holds sixteen bytes, so that no shift loses a bit, and the loops compute what `randomToken` computes
on numbers.

A token is read back as a numeral in base 32, whose digits are the places of its characters in the
alphabet.  Thirteen digits hold 65 bits: the numeral is the value of the bytes, most significant
byte first, and two different values never share a token.

Main definitions:

* `TermInterop.packBytes`, `TermInterop.emitCharacters`, `TermInterop.shiftToken` — the loops;
* `TermInterop.bigEndian`, `TermInterop.tokenValue` — what bytes and tokens denote.

Main results:

* `TermInterop.shiftToken_eq` — the loops on the machine word lose nothing;
* `TermInterop.tokenValue_of_randomToken` — the numeral of a token;
* `TermInterop.token_code_exact` — **a token is its random value, in another spelling**.
-/

import TermInterop.ArtifactRef

set_option relaxedAutoImplicit false
set_option autoImplicit false

namespace TermInterop

/-! ### The loops on the machine word -/

/-- The bytes shifted into the accumulator, one after the other. -/
def packBytes (accumulator : BitVec 128) : Bytes → BitVec 128
  | [] => accumulator
  | byte :: random => packBytes ((accumulator <<< 8) ||| byte.toBitVec.setWidth 128) random

/-- Groups of five bits taken off the accumulator, from the last character to the first. -/
def emitCharacters : ℕ → BitVec 128 → List Char → Except RegistryError (List Char)
  | 0, _, token => .ok token
  | remaining + 1, accumulator, token => do
      let character ← Checks.okOr TOKEN_ALPHABET[(accumulator &&& 31).toNat]? .random
      emitCharacters remaining (accumulator >>> 5) (character :: token)

/-- The token of some bytes, as the shifts and masks of the source compute it. -/
def shiftToken (random : Bytes) : Except RegistryError String := do
  let token ← emitCharacters TOKEN_LENGTH (packBytes 0 random) []
  .ok (String.ofList token)

/-- A byte is shifted in without loss while the accumulator has eight bits to spare. -/
theorem toNat_shiftLeft_or {accumulator : BitVec 128} (h : accumulator.toNat < 2 ^ 120)
    (byte : UInt8) :
    ((accumulator <<< 8) ||| byte.toBitVec.setWidth 128).toNat =
      accumulator.toNat * 256 + byte.toNat := by
  have hbyte : byte.toNat < 2 ^ 8 := byte.toNat_lt
  have hshift : accumulator.toNat <<< 8 % 2 ^ 128 = accumulator.toNat <<< 8 := by
    rw [Nat.shiftLeft_eq]
    exact Nat.mod_eq_of_lt (by omega)
  have hwide : byte.toNat % 2 ^ 128 = byte.toNat := Nat.mod_eq_of_lt (by omega)
  rw [BitVec.toNat_or, BitVec.toNat_shiftLeft, hshift, BitVec.toNat_setWidth, UInt8.toNat_toBitVec,
    hwide, ← Nat.shiftLeft_add_eq_or_of_lt hbyte, Nat.shiftLeft_eq]

/-- As many bytes as the accumulator has room for are packed without loss. -/
theorem toNat_packBytes (random : Bytes) {accumulator : BitVec 128}
    (h : accumulator.toNat * 256 ^ random.length + 256 ^ random.length ≤ 2 ^ 128) :
    (packBytes accumulator random).toNat =
      random.foldl (fun accumulator byte => accumulator * 256 + byte.toNat) accumulator.toNat := by
  induction random generalizing accumulator with
  | nil => rfl
  | cons byte random ih =>
      have hbyte : byte.toNat < 256 := byte.toNat_lt
      have hpos : 1 ≤ 256 ^ random.length := Nat.one_le_pow _ _ (by norm_num)
      have hroom : (accumulator.toNat + 1) * 256 * 256 ^ random.length ≤ 2 ^ 128 := by
        rw [List.length_cons, pow_succ] at h
        calc (accumulator.toNat + 1) * 256 * 256 ^ random.length
            = accumulator.toNat * (256 ^ random.length * 256) + 256 ^ random.length * 256 := by ring
          _ ≤ 2 ^ 128 := h
      have hsmall : accumulator.toNat < 2 ^ 120 := by
        have hfirst := (Nat.le_mul_of_pos_right ((accumulator.toNat + 1) * 256) hpos).trans hroom
        omega
      have hnext := toNat_shiftLeft_or hsmall byte
      rw [packBytes, ih, hnext, List.foldl_cons]
      rw [hnext]
      calc (accumulator.toNat * 256 + byte.toNat) * 256 ^ random.length + 256 ^ random.length
          = (accumulator.toNat * 256 + byte.toNat + 1) * 256 ^ random.length := by ring
        _ ≤ (accumulator.toNat + 1) * 256 * 256 ^ random.length :=
            Nat.mul_le_mul_right _ (by omega)
        _ ≤ 2 ^ 128 := hroom

/-- The mask and the shift of the loop are a remainder and a quotient. -/
theorem emitCharacters_eq (remaining : ℕ) (accumulator : BitVec 128) (token : List Char) :
    emitCharacters remaining accumulator token =
      tokenCharacters remaining accumulator.toNat token := by
  induction remaining generalizing accumulator token with
  | zero => rfl
  | succ remaining ih =>
      have hmask : (accumulator &&& 31).toNat = accumulator.toNat % 32 := by
        rw [BitVec.toNat_and]
        exact Nat.and_two_pow_sub_one_eq_mod accumulator.toNat 5
      have hshift : (accumulator >>> 5).toNat = accumulator.toNat / 32 := by
        rw [BitVec.toNat_ushiftRight, Nat.shiftRight_eq_div_pow]
      rw [emitCharacters, tokenCharacters, hmask]
      refine bind_congr fun character => ?_
      rw [ih, hshift]

/-- The loops on the machine word lose nothing of up to sixteen bytes. -/
theorem shiftToken_eq {random : Bytes} (h : random.length ≤ 16) :
    shiftToken random = randomToken random := by
  have hroom : (0 : BitVec 128).toNat * 256 ^ random.length + 256 ^ random.length ≤ 2 ^ 128 := by
    have hpow : 256 ^ random.length ≤ 256 ^ 16 := Nat.pow_le_pow_right (by norm_num) h
    have hzero : (0 : BitVec 128).toNat = 0 := rfl
    rw [hzero]
    omega
  rw [shiftToken, randomToken, emitCharacters_eq, toNat_packBytes random hroom]
  rfl

/-! ### What bytes and tokens denote -/

/-- The value of some bytes, the most significant byte first. -/
def bigEndian (bytes : Bytes) : ℕ := Nat.ofDigits 256 (bytes.reverse.map UInt8.toNat)

/-- A token as a numeral in base 32, the most significant character first. -/
def tokenValue (token : String) : ℕ :=
  Nat.ofDigits 32 (token.toList.reverse.map fun c => TOKEN_ALPHABET.idxOf c)

theorem foldl_eq_bigEndian (random : Bytes) :
    random.foldl (fun accumulator byte => accumulator * 256 + byte.toNat) 0 = bigEndian random := by
  induction random using List.reverseRecOn with
  | nil => rfl
  | append_singleton random byte ih =>
      rw [List.foldl_append, ih, bigEndian, bigEndian, List.reverse_append, List.reverse_singleton,
        List.singleton_append, List.map_cons, Nat.ofDigits_cons, List.foldl_cons, List.foldl_nil]
      ring

theorem digits_of_bytes (bytes : Bytes) : ∀ digit ∈ bytes.reverse.map UInt8.toNat, digit < 256 := by
  intro digit hdigit
  obtain ⟨byte, -, rfl⟩ := List.mem_map.1 hdigit
  exact byte.toNat_lt

theorem bigEndian_lt (bytes : Bytes) : bigEndian bytes < 256 ^ bytes.length := by
  have h := Nat.ofDigits_lt_base_pow_length (by norm_num) (digits_of_bytes bytes)
  rwa [List.length_map, List.length_reverse] at h

/-- Bytes of one length are told apart by their value. -/
theorem bigEndian_inj {bytes bytes' : Bytes} (hlength : bytes.length = bytes'.length)
    (h : bigEndian bytes = bigEndian bytes') : bytes = bytes' := by
  have hdigits := Nat.ofDigits_inj_of_len_eq (by norm_num) (by simpa using hlength)
    (digits_of_bytes bytes) (digits_of_bytes bytes') h
  have hreverse := List.map_injective_iff.2 (fun a b hab => UInt8.toNat_inj.1 hab) hdigits
  exact List.reverse_injective hreverse

/-- The character of a digit has that digit as its place in the alphabet. -/
theorem alphabet_digit {n : ℕ} {c : Char} (h : TOKEN_ALPHABET[n]? = some c) :
    c ∈ TOKEN_ALPHABET ∧ TOKEN_ALPHABET.idxOf c = n := by
  obtain ⟨hn, rfl⟩ := List.getElem?_eq_some_iff.1 h
  have hnodup : TOKEN_ALPHABET.Nodup := by decide
  exact ⟨List.getElem_mem hn, hnodup.idxOf_getElem n hn⟩

/-- The characters emitted are the digits of the accumulator, as many as there are characters. -/
theorem ofDigits_of_tokenCharacters (remaining accumulator : ℕ) (token : List Char) :
    ∃ cs, tokenCharacters remaining accumulator token = .ok (cs ++ token) ∧
      cs.length = remaining ∧ (∀ c ∈ cs, c ∈ TOKEN_ALPHABET) ∧
      Nat.ofDigits 32 (cs.reverse.map fun c => TOKEN_ALPHABET.idxOf c) =
        accumulator % 32 ^ remaining := by
  induction remaining generalizing accumulator token with
  | zero =>
      refine ⟨[], rfl, rfl, by simp, ?_⟩
      rw [pow_zero, Nat.mod_one]
      rfl
  | succ remaining ih =>
      obtain ⟨c, hc, -⟩ := exists_alphabet_character accumulator
      obtain ⟨hmem, hplace⟩ := alphabet_digit hc
      obtain ⟨cs, hcs, hlength, hall, hvalue⟩ := ih (accumulator / 32) (c :: token)
      refine ⟨cs ++ [c], ?_, by simp [hlength], ?_, ?_⟩
      · rw [tokenCharacters, hc, List.append_assoc]
        exact hcs
      · intro d hd
        rcases List.mem_append.1 hd with hd | hd
        · exact hall d hd
        · rw [List.mem_singleton.1 hd]
          exact hmem
      · rw [List.reverse_append, List.reverse_singleton, List.singleton_append, List.map_cons,
          Nat.ofDigits_cons, hvalue, hplace, pow_succ', Nat.mod_mul]

/-- The numeral of a token: thirteen digits have room for eight bytes. -/
theorem tokenValue_of_randomToken {random : Bytes} {token : String}
    (h : randomToken random = .ok token) :
    (∀ c ∈ token.toList, c ∈ TOKEN_ALPHABET) ∧
      tokenValue token = bigEndian random % 32 ^ TOKEN_LENGTH := by
  obtain ⟨cs, hcs, -, hall, hvalue⟩ := ofDigits_of_tokenCharacters TOKEN_LENGTH
    (random.foldl (fun accumulator byte => accumulator * 256 + byte.toNat) 0) []
  have hrun : randomToken random = .ok (String.ofList cs) := by
    rw [randomToken, hcs, List.append_nil]
    rfl
  obtain rfl : String.ofList cs = token := Except.ok.inj (hrun.symm.trans h)
  rw [foldl_eq_bigEndian] at hvalue
  rw [tokenValue, String.toList_ofList]
  exact ⟨hall, hvalue⟩

/-- **A token is its random value, in another spelling**: the loops give thirteen characters of the
alphabet, which all three spellings of a reference name, which read back as the value of the bytes,
and which no other bytes give. -/
theorem token_code_exact (random : Bytes) (h : random.length = TOKEN_BYTES) :
    ∃ token, shiftToken random = .ok token ∧ randomToken random = .ok token ∧
      token.toList.length = TOKEN_LENGTH ∧ (∀ c ∈ token.toList, c ∈ TOKEN_ALPHABET) ∧
      parseToken token = .ok token ∧ parseToken ("@" ++ token) = .ok token ∧
      parseToken (ARTIFACT_REF_URI_PREFIX ++ token) = .ok token ∧
      tokenValue token = bigEndian random ∧ bigEndian random < 2 ^ 64 ∧
      ∀ random' : Bytes, random'.length = TOKEN_BYTES → shiftToken random' = .ok token →
        random' = random := by
  have hvalue : ∀ {bytes : Bytes} {token : String}, bytes.length = TOKEN_BYTES →
      randomToken bytes = .ok token → bigEndian bytes < 2 ^ 64 ∧
        tokenValue token = bigEndian bytes := by
    intro bytes token hlength htoken
    have hlt : bigEndian bytes < 2 ^ 64 := by
      have hlt := bigEndian_lt bytes
      rw [hlength, TOKEN_BYTES] at hlt
      exact hlt
    refine ⟨hlt, (tokenValue_of_randomToken htoken).2.trans (Nat.mod_eq_of_lt (hlt.trans ?_))⟩
    norm_num [TOKEN_LENGTH]
  have hshift : ∀ {bytes : Bytes}, bytes.length = TOKEN_BYTES →
      shiftToken bytes = randomToken bytes := by
    intro bytes hlength
    exact shiftToken_eq (by rw [hlength, TOKEN_BYTES]; omega)
  obtain ⟨token, htoken, hcanonical⟩ := canonical_randomToken random
  refine ⟨token, (hshift h).trans htoken, htoken, hcanonical.1,
    (tokenValue_of_randomToken htoken).1, parseToken_eq_ok_iff.2 ⟨hcanonical, Or.inr (Or.inr rfl)⟩,
    parseToken_eq_ok_iff.2 ⟨hcanonical, Or.inr (Or.inl rfl)⟩,
    parseToken_eq_ok_iff.2 ⟨hcanonical, Or.inl rfl⟩, (hvalue h htoken).2, (hvalue h htoken).1, ?_⟩
  intro random' hlength htoken'
  refine bigEndian_inj (hlength.trans h.symm) ?_
  rw [← (hvalue h htoken).2, ← (hvalue hlength (hshift hlength ▸ htoken')).2]

/-- The bytes of a value with its ends marked. -/
theorem token_code_exact_marked :
    ∃ token, shiftToken [0x80, 0, 0, 0, 0, 0, 0, 1] = .ok token ∧
      tokenValue token = 2 ^ 63 + 1 := by
  obtain ⟨token, htoken, -, -, -, -, -, -, hvalue, -⟩ :=
    token_code_exact [0x80, 0, 0, 0, 0, 0, 0, 1] rfl
  refine ⟨token, htoken, hvalue.trans ?_⟩
  rfl

end TermInterop
