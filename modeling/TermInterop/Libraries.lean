/-
The libraries that the program rests on.

The JSON library is a parameter: it reads back what it has written, compactly or in lines, for
documents that are not too deep.  The callbacks and the registry use it at the records that they
write, and of the hash the registry needs no more than its length.  Here all of them are given: the
reader of JSON documents, SHA-256, and Base64.

SHA-256 pads the message to blocks of sixty-four bytes, and mixes each block into eight words in
sixty-four rounds.  A round uses one word of the schedule; the schedule is kept as a window of
sixteen words, of which the first is used and dropped and a new one is appended.

Main definitions:

* `Sha2.sha256` — the hash;
* `TermInterop.JsonLibrary` — the JSON library, of which `TermInterop.JsonLibrary.callbackJson` and
  `TermInterop.JsonLibrary.serdeJson` are the parts that the callbacks and the registry use;
* `TermInterop.parsedJson`, `TermInterop.compactLibraries` — the libraries.

Main results:

* `Sha2.length_sha256` — a hash has thirty-two bytes;
* `TermInterop.JsonLibrary.fromSlice_serializedJson` — a document is read back.
-/

import TermInterop.ReferenceDocuments

set_option relaxedAutoImplicit false
set_option autoImplicit false

/-! ### SHA-256 -/

namespace Sha2

/-- The eight words. -/
structure State where
  a : UInt32
  b : UInt32
  c : UInt32
  d : UInt32
  e : UInt32
  f : UInt32
  g : UInt32
  h : UInt32

def State.add (s t : State) : State :=
  ⟨s.a + t.a, s.b + t.b, s.c + t.c, s.d + t.d, s.e + t.e, s.f + t.f, s.g + t.g, s.h + t.h⟩

def rotr (x n : UInt32) : UInt32 := (x >>> n) ||| (x <<< (32 - n))

def smallSigma0 (x : UInt32) : UInt32 := rotr x 7 ^^^ rotr x 18 ^^^ (x >>> 3)

def smallSigma1 (x : UInt32) : UInt32 := rotr x 17 ^^^ rotr x 19 ^^^ (x >>> 10)

def bigSigma0 (x : UInt32) : UInt32 := rotr x 2 ^^^ rotr x 13 ^^^ rotr x 22

def bigSigma1 (x : UInt32) : UInt32 := rotr x 6 ^^^ rotr x 11 ^^^ rotr x 25

def choose (x y z : UInt32) : UInt32 := (x &&& y) ^^^ (~~~x &&& z)

def majority (x y z : UInt32) : UInt32 := (x &&& y) ^^^ (x &&& z) ^^^ (y &&& z)

/-- The constants of the rounds. -/
def constants : List UInt32 :=
  [0x428a2f98, 0x71374491, 0xb5c0fbcf, 0xe9b5dba5, 0x3956c25b, 0x59f111f1, 0x923f82a4, 0xab1c5ed5,
    0xd807aa98, 0x12835b01, 0x243185be, 0x550c7dc3, 0x72be5d74, 0x80deb1fe, 0x9bdc06a7, 0xc19bf174,
    0xe49b69c1, 0xefbe4786, 0x0fc19dc6, 0x240ca1cc, 0x2de92c6f, 0x4a7484aa, 0x5cb0a9dc, 0x76f988da,
    0x983e5152, 0xa831c66d, 0xb00327c8, 0xbf597fc7, 0xc6e00bf3, 0xd5a79147, 0x06ca6351, 0x14292967,
    0x27b70a85, 0x2e1b2138, 0x4d2c6dfc, 0x53380d13, 0x650a7354, 0x766a0abb, 0x81c2c92e, 0x92722c85,
    0xa2bfe8a1, 0xa81a664b, 0xc24b8b70, 0xc76c51a3, 0xd192e819, 0xd6990624, 0xf40e3585, 0x106aa070,
    0x19a4c116, 0x1e376c08, 0x2748774c, 0x34b0bcb5, 0x391c0cb3, 0x4ed8aa4a, 0x5b9cca4f, 0x682e6ff3,
    0x748f82ee, 0x78a5636f, 0x84c87814, 0x8cc70208, 0x90befffa, 0xa4506ceb, 0xbef9a3f7, 0xc67178f2]

/-- The words before the first block. -/
def initial : State :=
  ⟨0x6a09e667, 0xbb67ae85, 0x3c6ef372, 0xa54ff53a, 0x510e527f, 0x9b05688c, 0x1f83d9ab, 0x5be0cd19⟩

/-- One round with a constant and a word of the schedule. -/
def round (s : State) (k w : UInt32) : State :=
  let t1 := s.h + bigSigma1 s.e + choose s.e s.f s.g + k + w
  let t2 := bigSigma0 s.a + majority s.a s.b s.c
  ⟨t1 + t2, s.a, s.b, s.c, s.d + t1, s.e, s.f, s.g⟩

/-- The word of the schedule that follows a window of sixteen words. -/
def nextWord (window : List UInt32) : UInt32 :=
  smallSigma1 (window.getD 14 0) + window.getD 9 0 + smallSigma0 (window.getD 1 0) +
    window.getD 0 0

/-- The rounds of a block. -/
def rounds : List UInt32 → State → List UInt32 → State
  | [], s, _ => s
  | k :: constants, s, window =>
      rounds constants (round s k (window.getD 0 0)) (window.tail ++ [nextWord window])

/-- A word from its bytes, the most significant first. -/
def word (bytes : List UInt8) : UInt32 :=
  bytes.foldl (fun w b => (w <<< 8) ||| b.toUInt32) 0

/-- The words of a block. -/
def words : ℕ → List UInt8 → List UInt32
  | 0, _ => []
  | count + 1, bytes => word (bytes.take 4) :: words count (bytes.drop 4)

/-- One block after the other. -/
def compress : ℕ → State → List UInt8 → State
  | 0, s, _ => s
  | blocks + 1, s, bytes =>
      compress blocks (s.add (rounds constants s (words 16 (bytes.take 64)))) (bytes.drop 64)

/-- The bytes of a word, the most significant first. -/
def wordBytes (w : UInt32) : List UInt8 :=
  [(w >>> 24).toUInt8, (w >>> 16).toUInt8, (w >>> 8).toUInt8, w.toUInt8]

/-- The message, a one bit, zeros, and the number of bits of the message in eight bytes. -/
def padded (bytes : List UInt8) : List UInt8 :=
  bytes ++ 0x80 :: (List.replicate ((119 - bytes.length % 64) % 64) 0 ++
    (List.range 8).map fun i => UInt8.ofNat (bytes.length * 8 / 2 ^ (8 * (7 - i))))

/-- **SHA-256.** -/
def sha256 (bytes : List UInt8) : List UInt8 :=
  let s := compress ((padded bytes).length / 64) initial (padded bytes)
  [s.a, s.b, s.c, s.d, s.e, s.f, s.g, s.h].flatMap wordBytes

theorem length_sha256 (bytes : List UInt8) : (sha256 bytes).length = 32 := rfl

/-- The hash of `abc`. -/
example : sha256 [0x61, 0x62, 0x63] =
    [0xba, 0x78, 0x16, 0xbf, 0x8f, 0x01, 0xcf, 0xea, 0x41, 0x41, 0x40, 0xde, 0x5d, 0xae, 0x22, 0x23,
      0xb0, 0x03, 0x61, 0xa3, 0x96, 0x17, 0x7a, 0x9c, 0xb4, 0x10, 0xff, 0x61, 0xf2, 0x00, 0x15,
      0xad] := by
  decide +kernel

end Sha2

namespace TermInterop

open Json (Document)

/-! ### The JSON library -/

/-- **`serde_json`**: what it writes for a document it reads back, with blanks after it. -/
structure JsonLibrary where
  float : ℚ → Bytes
  fromSlice : Bytes → Option Document
  fromSlice_write : ∀ (d : Document) (depth : Option ℕ) (blanks : Bytes),
    d.Within Json.RECURSION_LIMIT → depth = none ∨ depth = some 0 →
      (∀ b ∈ blanks, Json.isBlank b = true) →
        fromSlice (Json.write float depth d ++ blanks) = some d

/-- `serialized_json`. -/
def JsonLibrary.serializedJson (json : JsonLibrary) (d : Document) (pretty : Bool) : Bytes :=
  Json.write json.float (if pretty then some 0 else none) d ++ [Json.newline]

theorem JsonLibrary.fromSlice_serializedJson (json : JsonLibrary) {d : Document}
    (h : d.Within Json.RECURSION_LIMIT) (pretty : Bool) :
    json.fromSlice (json.serializedJson d pretty) = some d := by
  refine json.fromSlice_write d _ _ h ?_ (by simp [Json.isBlank])
  cases pretty with
  | true => exact Or.inr rfl
  | false => exact Or.inl rfl

/-- A JSON library. -/
def parsedJson : JsonLibrary where
  float _ := []
  fromSlice := Json.parse
  fromSlice_write _ depth _ h _ hblanks := Json.parse_write _ h depth hblanks

/-- What is written compactly is read back. -/
theorem JsonLibrary.fromSlice_compact (json : JsonLibrary) {d : Document}
    (h : d.Within Json.RECURSION_LIMIT) :
    json.fromSlice (Json.write json.float none d) = some d := by
  have hread := json.fromSlice_write d none [] h (Or.inl rfl) (by simp)
  rwa [List.append_nil] at hread

/-! ### The records of the other parts -/

/-- **The JSON library at the records that travel.** -/
def JsonLibrary.callbackJson (json : JsonLibrary) : CallbackJson where
  intent bytes := (json.fromSlice bytes).bind OpenIntentV1.deserialize
  receipt bytes := (json.fromSlice bytes).bind IntentReceiptV1.deserialize
  intent_toVec intent := by
    have hwithin := OpenIntentV1.roundTrip.within_of_le (by decide : 2 ≤ 127) intent
    rw [← OpenIntentV1.write_serialize json.float, json.fromSlice_compact hwithin]
    exact OpenIntentV1.roundTrip.read_write intent
  receipt_toVec receipt := by
    have hwithin := IntentReceiptV1.roundTrip.within_of_le (by decide : 1 ≤ 127) receipt
    rw [← IntentReceiptV1.write_serialize json.float, json.fromSlice_compact hwithin]
    exact IntentReceiptV1.roundTrip.read_write receipt

/-- **The JSON library at the entries of a registry.** -/
def JsonLibrary.serdeJson (json : JsonLibrary) : SerdeJson where
  toVec := ArtifactRefV1.toVec
  fromSlice bytes := (json.fromSlice bytes).bind ArtifactRefV1.deserialize
  fromSlice_toVec entry := by
    have hwithin := ArtifactRefV1.roundTrip.within_of_le (by decide : 2 ≤ 127) entry
    rw [← ArtifactRefV1.write_serialize json.float, json.fromSlice_compact hwithin]
    exact ArtifactRefV1.roundTrip.read_write entry
  length_toVec_le := ArtifactRefV1.length_toVec_le

/-- **SHA-256, standard Base64, and JSON.** -/
def compactLibraries : Libraries where
  b64 := Base64.standard
  sha256 := ⟨Sha2.sha256, Sha2.length_sha256⟩
  serdeJson := parsedJson.serdeJson

end TermInterop
