/-
Primary device attributes: parsing one reply at an exact offset, and all replies of a stream.

A reply is `ESC [ ?`, a run of digits and semicolons, and `c`.  The parameters are the non-empty
fields between the semicolons; a reply without any, or with one that does not fit `u16`, is no
reply.  `parseResponseAt` follows the source statement by statement; the lemmas behind it say what
it does in terms of what follows the offset, which is all that a scan needs.

Main definitions:

* `TermInterop.Da1.Da1Response`, `TermInterop.Da1.Da1Response.wireEvent` — one reply;
* `TermInterop.Da1.parseResponseAt`, `TermInterop.Da1.parseResponses` — the parsers;
* `TermInterop.Da1.Reply`, `TermInterop.Da1.lexicon` — replies as tokens of a stream.

Main results:

* `TermInterop.Da1.framed_of_parseResponseAt` — a parsed reply is framed;
* `TermInterop.Da1.parseResponseAt_of_framed` — what the parser makes of a frame;
* `TermInterop.Da1.parseResponseAt_eq_some_iff` — **what a parsed reply is**;
* `TermInterop.Da1.recognizes`, `TermInterop.Da1.separate` — the scan finds the replies, and no
  reply lies inside another one.
-/

import TermInterop.Receipt
import TermInterop.Lexing
import TermInterop.Slices
import TermInterop.Utf8Lossy

set_option relaxedAutoImplicit false
set_option autoImplicit false

namespace TermInterop

/-- The escape byte. -/
def ESC : UInt8 := 0x1b

/-- The byte of an ASCII character. -/
abbrev ascii (c : Char) : UInt8 := Text.asciiByte c

/-- `str::parse::<u16>`. -/
def parseU16 (s : List Char) : Option UInt16 := (Text.parseUnsigned (2 ^ 16 - 1) s).map UInt16.ofNat

/-- `str::parse::<u32>`. -/
def parseU32 (s : List Char) : Option UInt32 := (Text.parseUnsigned (2 ^ 32 - 1) s).map UInt32.ofNat

namespace Da1

/-- One parsed private DA1 response with exact wire offsets. -/
structure Da1Response where
  offset : ℕ
  endOffset : ℕ
  /-- Device level followed by advertised extension identifiers. -/
  parameters : List UInt16
  parameterText : String
  rawBase64 : String

/-- Protocol identity for the DA1 query and response exchange. -/
def protocolId : ProtocolId :=
  ⟨"org.ecma", "ansi-dec-primary-device-attributes", "csi-c-da1-v1"⟩

/-- Build a primary device attributes query: `ESC [ c`. -/
def buildQuery : Bytes := [ESC, ascii '[', ascii 'c']

namespace Da1Response

variable (response : Da1Response)

/-- The first DA1 parameter, representing the device level. -/
def deviceLevel : Option UInt16 := response.parameters.head?

/-- Whether the response advertises one extension identifier. -/
def advertises (extension : UInt16) : Bool :=
  match Slices.sliceFrom? response.parameters 1 with
  | some values => values.contains extension
  | none => false

/-- Convert this response into a protocol-neutral wire event. -/
def wireEvent (sequence : UInt32) (role : WireEventRole) : WireEvent :=
  let fields : Fields := (∅ : Fields).insert "parameters" response.parameterText
  let fields := match response.deviceLevel with
    | some level => fields.insert "device_level" (Nat.repr level.toNat)
    | none => fields
  let extensions := ",".intercalate
    (((Slices.sliceFrom? response.parameters 1).getD []).map fun value => Nat.repr value.toNat)
  { sequence := sequence
    role := role
    protocol := some protocolId
    correlation := none
    status := none
    fields := fields.insert "extensions" extensions
    rawBase64 := response.rawBase64 }

@[simp] theorem wireEvent_sequence (sequence : UInt32) (role : WireEventRole) :
    (response.wireEvent sequence role).sequence = sequence := rfl

@[simp] theorem wireEvent_role (sequence : UInt32) (role : WireEventRole) :
    (response.wireEvent sequence role).role = role := rfl

@[simp] theorem wireEvent_rawBase64 (sequence : UInt32) (role : WireEventRole) :
    (response.wireEvent sequence role).rawBase64 = response.rawBase64 := rfl

end Da1Response

/-! ### The parser -/

/-- The first three bytes of a reply. -/
def replyIntro : Bytes := [ESC, ascii '[', ascii '?']

/-- A byte of the parameter run: a digit or a semicolon. -/
def isParameterByte (b : UInt8) : Bool := (ascii '0' ≤ b && b ≤ ascii '9') || b = ascii ';'

/-- The loop over the parameter run, on the bytes from offset `end_` on: the offset at which it
stops, or nothing where it returns. -/
def parameterRun : Bytes → ℕ → Option ℕ
  | [], end_ => some end_
  | b :: bs, end_ =>
      if isParameterByte b then parameterRun bs (end_ + 1)
      else if b = ascii 'c' then some end_
      else none

/-- The parameters of a parameter body. -/
def parseParameters (body : List Char) : Option (List UInt16) :=
  ((body.splitOn ';').filter fun value => value ≠ []).mapM parseU16

/-- **Parse one complete private DA1 response at an exact byte offset.** -/
def parseResponseAt (b64 : Base64.Codec) (input : Bytes) (offset : ℕ) : Option Da1Response := do
  let prefixEnd := offset + 3
  let head ← Slices.slice? input offset prefixEnd
  if head ≠ replyIntro then none else
  let end_ ← parameterRun (input.drop prefixEnd) prefixEnd
  if input[end_]? ≠ some (ascii 'c') then none else
  let parameterBytes ← Slices.slice? input prefixEnd end_
  let parameterBody ← Utf8Lossy.decodeStrict parameterBytes
  let parameters ← parseParameters parameterBody
  if parameters = [] then none else
  let endOffset := end_ + 1
  let raw ← Slices.slice? input offset endOffset
  some ⟨offset, endOffset, parameters, String.ofList ('?' :: parameterBody), b64.encode raw⟩

/-! ### What the parser says -/

theorem lt_of_isParameterByte {b : UInt8} (h : isParameterByte b) : b.toNat < 0x80 := by
  simp only [isParameterByte, Bool.or_eq_true, Bool.and_eq_true, decide_eq_true_eq] at h
  rcases h with ⟨-, h⟩ | rfl
  · exact lt_of_le_of_lt (UInt8.le_iff_toNat_le.1 h) (by decide)
  · decide

/-- Where the loop over the parameter run stops. -/
theorem parameterRun_eq_some_iff {bs : Bytes} {start end_ : ℕ} :
    parameterRun bs start = some end_ ↔
      ∃ run rest, bs = run ++ rest ∧ (∀ b ∈ run, isParameterByte b) ∧
        end_ = start + run.length ∧ (rest = [] ∨ rest.head? = some (ascii 'c')) := by
  induction bs generalizing start with
  | nil =>
      rw [parameterRun, Option.some_inj]
      constructor
      · rintro rfl
        exact ⟨[], [], rfl, by simp, rfl, Or.inl rfl⟩
      · rintro ⟨run, rest, heq, -, rfl, -⟩
        obtain ⟨rfl, rfl⟩ := List.append_eq_nil_iff.1 heq.symm
        rfl
  | cons b bs ih =>
      rw [parameterRun]
      by_cases hb : isParameterByte b = true
      · rw [if_pos hb, ih]
        constructor
        · rintro ⟨run, rest, rfl, hrun, rfl, hrest⟩
          refine ⟨b :: run, rest, rfl, List.forall_mem_cons.2 ⟨hb, hrun⟩, ?_, hrest⟩
          rw [List.length_cons]
          omega
        · rintro ⟨run, rest, heq, hrun, rfl, hrest⟩
          cases run with
          | nil =>
              rw [List.nil_append] at heq
              subst heq
              obtain h | h := hrest
              · cases h
              · obtain rfl : b = ascii 'c' := by simpa using h
                exact absurd hb (by decide)
          | cons b' run =>
              obtain ⟨rfl, rfl⟩ := List.cons.inj heq
              refine ⟨run, rest, rfl, (List.forall_mem_cons.1 hrun).2, ?_, hrest⟩
              rw [List.length_cons]
              omega
      · rw [if_neg hb]
        have hnil : ∀ run rest, b :: bs = run ++ rest → (∀ b ∈ run, isParameterByte b) →
            run = [] := by
          intro run rest heq hrun
          cases run with
          | nil => rfl
          | cons b' run =>
              obtain ⟨rfl, -⟩ := List.cons.inj heq
              exact absurd (hrun b List.mem_cons_self) hb
        constructor
        · intro h
          split at h
          · rename_i hc
            obtain rfl := Option.some_inj.1 h
            exact ⟨[], b :: bs, rfl, by simp, by simp, Or.inr (by simp [hc])⟩
          · cases h
        · rintro ⟨run, rest, heq, hrun, rfl, hrest⟩
          obtain rfl := hnil run rest heq hrun
          rw [List.nil_append] at heq
          subst heq
          obtain h | h := hrest
          · cases h
          · rw [if_pos (by simpa using h)]
            rfl

section Parse

variable {b64 : Base64.Codec} {input : Bytes} {offset : ℕ}

/-- A parsed reply is framed: its first three bytes, a parameter run, and its last byte. -/
theorem framed_of_parseResponseAt {response : Da1Response}
    (h : parseResponseAt b64 input offset = some response) :
    ∃ run rest, input.drop offset = replyIntro ++ run ++ ascii 'c' :: rest ∧
      ∀ b ∈ run, isParameterByte b := by
  simp only [parseResponseAt, Option.bind_eq_bind, Option.bind_eq_some_iff] at h
  obtain ⟨head, hhead, h⟩ := h
  split at h
  · cases h
  · rename_i hintro
    obtain rfl : head = replyIntro := not_not.1 hintro
    obtain ⟨-, -, rest₀, hdrop⟩ := Slices.slice?_eq_some_iff.1 hhead
    have hdrop3 : input.drop (offset + 3) = rest₀ :=
      Slices.drop_add_of_append (m := replyIntro) hdrop.symm
    obtain ⟨end_, hrun, h⟩ := Option.bind_eq_some_iff.1 h
    rw [hdrop3] at hrun
    obtain ⟨run, rest₁, rfl, hdigits, rfl, -⟩ := parameterRun_eq_some_iff.1 hrun
    split at h
    · cases h
    · rename_i hlast
      rw [not_not, ← List.head?_drop, Slices.drop_add_of_append hdrop3] at hlast
      obtain ⟨rest, rfl⟩ := List.head?_eq_some_iff.1 hlast
      exact ⟨run, rest, by rw [← hdrop, List.append_assoc], hdigits⟩

/-- What the parser makes of a framed parameter run. -/
theorem parseResponseAt_of_framed {run rest : Bytes}
    (h : input.drop offset = replyIntro ++ run ++ ascii 'c' :: rest)
    (hrun : ∀ b ∈ run, isParameterByte b) :
    parseResponseAt b64 input offset =
      (parseParameters (Utf8Lossy.decode run)).bind fun parameters =>
        if parameters = [] then none
        else some ⟨offset, offset + 3 + run.length + 1, parameters,
          String.ofList ('?' :: Utf8Lossy.decode run),
          b64.encode (replyIntro ++ run ++ [ascii 'c'])⟩ := by
  have hlt : offset < input.length := by
    refine Slices.lt_length_of_drop_ne_nil ?_
    rw [h]
    simp [replyIntro]
  have hhead : Slices.slice? input offset (offset + 3) = some replyIntro :=
    Slices.slice?_of_drop (by rw [h, List.append_assoc]) hlt.le rfl
  have hdrop3 : input.drop (offset + 3) = run ++ ascii 'c' :: rest :=
    Slices.drop_add_of_append (m := replyIntro) (by rw [h, List.append_assoc])
  have hend : parameterRun (input.drop (offset + 3)) (offset + 3) =
      some (offset + 3 + run.length) := by
    rw [hdrop3]
    exact parameterRun_eq_some_iff.2 ⟨run, _, rfl, hrun, rfl, Or.inr rfl⟩
  have hlast : input[offset + 3 + run.length]? = some (ascii 'c') := by
    rw [← List.head?_drop, Slices.drop_add_of_append hdrop3]
    rfl
  have hbytes : Slices.slice? input (offset + 3) (offset + 3 + run.length) = some run :=
    Slices.slice?_of_drop hdrop3 (by
      have hlt3 : offset + 3 < input.length :=
        Slices.lt_length_of_drop_ne_nil (by rw [hdrop3]; simp)
      omega) rfl
  have hraw : Slices.slice? input offset (offset + 3 + run.length + 1) =
      some (replyIntro ++ run ++ [ascii 'c']) :=
    Slices.slice?_of_drop (h.trans (by simp : _ = replyIntro ++ run ++ [ascii 'c'] ++ rest)) hlt.le
      (by simp [replyIntro]; omega)
  have hbody : Utf8Lossy.decodeStrict run = some (Utf8Lossy.decode run) :=
    Utf8Lossy.decodeStrict_of_ascii fun b hb => lt_of_isParameterByte (hrun b hb)
  rw [parseResponseAt, hhead]
  simp only [Option.bind_eq_bind, Option.bind_some]
  rw [if_neg (show ¬ replyIntro ≠ replyIntro by simp), hend]
  simp only [Option.bind_some]
  rw [if_neg (by rw [hlast]; simp), hbytes]
  simp only [Option.bind_some, hbody, hraw]

/-- **What a parsed reply is**: the offset is followed by a framed parameter run whose non-empty
fields are numbers, at least one of them. -/
theorem parseResponseAt_eq_some_iff {response : Da1Response} :
    parseResponseAt b64 input offset = some response ↔
      ∃ run rest parameters, input.drop offset = replyIntro ++ run ++ ascii 'c' :: rest ∧
        (∀ b ∈ run, isParameterByte b) ∧
        parseParameters (Utf8Lossy.decode run) = some parameters ∧ parameters ≠ [] ∧
        response = ⟨offset, offset + 3 + run.length + 1, parameters,
          String.ofList ('?' :: Utf8Lossy.decode run),
          b64.encode (replyIntro ++ run ++ [ascii 'c'])⟩ := by
  constructor
  · intro h
    obtain ⟨run, rest, hdrop, hrun⟩ := framed_of_parseResponseAt h
    rw [parseResponseAt_of_framed hdrop hrun, Option.bind_eq_some_iff] at h
    obtain ⟨parameters, hparams, h⟩ := h
    split at h
    · cases h
    · rename_i hne
      exact ⟨run, rest, parameters, hdrop, hrun, hparams, hne, (Option.some_inj.1 h).symm⟩
  · rintro ⟨run, rest, parameters, hdrop, hrun, hparams, hne, rfl⟩
    rw [parseResponseAt_of_framed hdrop hrun, hparams, Option.bind_some, if_neg hne]

/-- No reply stands where its first byte does not. -/
theorem parseResponseAt_eq_none_of_head (h : (input.drop offset).head? ≠ some ESC) :
    parseResponseAt b64 input offset = none := by
  rw [Option.eq_none_iff_forall_ne_some]
  intro response hresponse
  obtain ⟨run, rest, hdrop, -⟩ := framed_of_parseResponseAt hresponse
  exact h (by rw [hdrop]; rfl)

/-- A parsed reply ends behind its offset, inside the buffer. -/
theorem parseResponseAt_bounds {response : Da1Response}
    (h : parseResponseAt b64 input offset = some response) :
    offset < response.endOffset ∧ response.endOffset ≤ input.length := by
  obtain ⟨run, rest, parameters, hdrop, -, -, -, rfl⟩ := parseResponseAt_eq_some_iff.1 h
  have hlen := congrArg List.length hdrop
  simp only [List.length_drop, List.length_append, List.length_cons, replyIntro,
    List.length_nil] at hlen
  exact ⟨by simp only; omega, by simp only; omega⟩

end Parse

/-! ### All replies of a stream -/

/-- The recognizer of the scan. -/
def recognizer (b64 : Base64.Codec) (input : Bytes) : ScanLoop.Recognizer Unit Da1Response where
  find _ offset := (parseResponseAt b64 input offset).map fun response =>
    (response, response.endOffset)
  progress _ offset response next h := by
    obtain ⟨r, hr, heq⟩ := Option.map_eq_some_iff.1 h
    obtain ⟨rfl, rfl⟩ := Prod.mk.inj heq
    exact (parseResponseAt_bounds hr).1

/-- **Parse all complete private DA1 responses from an arbitrary byte stream.** -/
def parseResponses (b64 : Base64.Codec) (input : Bytes) : List Da1Response :=
  ScanLoop.scan (recognizer b64 input) id input.length ()

/-! ### Replies as tokens -/

/-- A reply: a parameter run whose non-empty fields are numbers, at least one of them. -/
structure Reply where
  run : Bytes
  digits : ∀ b ∈ run, isParameterByte b
  parameters : List UInt16
  parsed : parseParameters (Utf8Lossy.decode run) = some parameters
  some_parameter : parameters ≠ []

namespace Reply

variable (reply : Reply)

/-- The bytes of a reply. -/
def bytes : Bytes := replyIntro ++ reply.run ++ [ascii 'c']

/-- What the parser makes of a reply at an offset. -/
def response (b64 : Base64.Codec) (offset : ℕ) : Da1Response :=
  ⟨offset, offset + reply.bytes.length, reply.parameters,
    String.ofList ('?' :: Utf8Lossy.decode reply.run), b64.encode reply.bytes⟩

theorem length_bytes : reply.bytes.length = 3 + reply.run.length + 1 := by
  simp only [bytes, replyIntro, List.length_append, List.length_cons, List.length_nil]

theorem response_eq (b64 : Base64.Codec) (offset : ℕ) :
    reply.response b64 offset = ⟨offset, offset + 3 + reply.run.length + 1, reply.parameters,
      String.ofList ('?' :: Utf8Lossy.decode reply.run),
      b64.encode (replyIntro ++ reply.run ++ [ascii 'c'])⟩ := by
  rw [response, length_bytes, ← Nat.add_assoc, ← Nat.add_assoc, bytes]

end Reply

/-- The replies. -/
def lexicon : Lexing.Lexicon UInt8 Reply where
  bytes := Reply.bytes
  nonempty reply := by simp [Reply.bytes, replyIntro]

/-- **The parser finds the replies.** -/
theorem parseResponseAt_eq_some_iff_standsAt {b64 : Base64.Codec} {input : Bytes} {offset : ℕ}
    {response : Da1Response} : parseResponseAt b64 input offset = some response ↔
      ∃ reply, lexicon.StandsAt input offset reply ∧ response = reply.response b64 offset := by
  rw [parseResponseAt_eq_some_iff]
  constructor
  · rintro ⟨run, rest, parameters, hdrop, digits, parsed, some_parameter, rfl⟩
    refine ⟨⟨run, digits, parameters, parsed, some_parameter⟩, ⟨rest, ?_⟩, ?_⟩
    · rw [hdrop]
      simp [lexicon, Reply.bytes]
    · rw [Reply.response_eq]
  · rintro ⟨reply, ⟨rest, hrest⟩, rfl⟩
    refine ⟨reply.run, rest, reply.parameters, ?_, reply.digits, reply.parsed,
      reply.some_parameter, ?_⟩
    · rw [← hrest]
      simp [lexicon, Reply.bytes]
    · rw [Reply.response_eq]

/-- The scan recognizes the replies. -/
theorem recognizes (b64 : Base64.Codec) (input : Bytes) :
    Lexing.Recognizes (recognizer b64 input) lexicon input fun _ offset reply =>
      reply.response b64 offset := by
  intro _ offset hit
  simp only [recognizer, Option.map_eq_some_iff, parseResponseAt_eq_some_iff_standsAt]
  constructor
  · rintro ⟨_, ⟨reply, hstands, rfl⟩, rfl⟩
    exact ⟨reply, hstands, rfl⟩
  · rintro ⟨reply, hstands, rfl⟩
    exact ⟨_, ⟨reply, hstands, rfl⟩, rfl⟩

/-- The escape byte of a reply is its first byte. -/
theorem marked : lexicon.Marked ESC := by
  intro reply
  refine ⟨[ascii '[', ascii '?'] ++ reply.run ++ [ascii 'c'], rfl, ?_⟩
  have hrun : ESC ∉ reply.run := fun h => absurd (reply.digits _ h) (by decide)
  simp only [List.mem_append, not_or]
  exact ⟨⟨by decide, hrun⟩, by decide⟩

/-- **No reply lies inside another one.** -/
theorem separate : lexicon.Separate := marked.separate

end Da1

end TermInterop
