/-
The positions of device attributes.

A device-attributes reply lists fields.  The first one is the device level and the others are
extensions; an empty field stands for a default.  The parser drops the empty fields before it reads
the numbers, so a field keeps its role only as long as nothing in front of it is empty: a reply
whose level is empty has its first extension taken for the level.

Main definitions:

* `TermInterop.Da1Fields.at_` — the number that a field denotes, by its position;
* `TermInterop.Positional` — a reply is read by positions.

Main results:

* `TermInterop.device_fields_positional_iff` — **the fields keep their positions**, if and only if
  the first one is not empty.
-/

import TermInterop.ReplyStream

set_option relaxedAutoImplicit false
set_option autoImplicit false

namespace TermInterop

namespace Da1Fields

variable (fields : Da1Fields)

/-- The number that the field at a position denotes. -/
def at_ (i : ℕ) : Option UInt16 := fields.fields[i]?.bind denoted

/-- The bytes of the reply with these fields. -/
def bytes : Bytes := Da1.replyIntro ++ fields.run ++ [ascii 'c']

/-- The reply with these fields, as a token. -/
def reply : Da1.Reply where
  run := fields.run
  digits _ hb := fields.mem_run hb
  parameters := fields.values
  parsed := by rw [fields.decode_run, fields.parseParameters_text.1]
  some_parameter := fields.parseParameters_text.2

/-- What the parser makes of the reply. -/
theorem parseResponseAt_append (b64 : Base64.Codec) (before after : Bytes) :
    Da1.parseResponseAt b64 (before ++ fields.bytes ++ after) before.length =
      some (fields.reply.response b64 before.length) := by
  refine Da1.parseResponseAt_eq_some_iff_standsAt.2 ⟨fields.reply, ⟨after, ?_⟩, rfl⟩
  rw [List.append_assoc, List.drop_left]
  rfl

/-- The parser sees the one reply of a stream that consists of it. -/
theorem parseResponses_bytes (b64 : Base64.Codec) :
    Da1.parseResponses b64 fields.bytes = [fields.reply.response b64 0] := by
  have hsingle : Lexing.Lexed Da1.lexicon fields.bytes 0 [(0, fields.reply)] :=
    Lexing.Lexed.single fields.reply
  exact Lexing.scanFrom_of_lexed (Da1.recognizes b64 fields.bytes) hsingle ()

variable {fields}

theorem exists_cons : ∃ first rest, fields.fields = first :: rest := by
  obtain ⟨field, hmem, -⟩ := fields.some_field
  exact List.exists_cons_of_ne_nil (List.ne_nil_of_mem hmem)

/-- What the fields behind the first one denote. -/
theorem mem_filterMap_iff {first : List Char} {rest : List (List Char)}
    (h : fields.fields = first :: rest) {value : UInt16} :
    value ∈ rest.filterMap denoted ↔ ∃ i, 1 ≤ i ∧ fields.at_ i = some value := by
  simp only [at_, h, List.mem_filterMap]
  constructor
  · rintro ⟨field, hmem, hvalue⟩
    obtain ⟨i, hi⟩ := List.mem_iff_getElem?.1 hmem
    refine ⟨i + 1, Nat.le_add_left 1 i, ?_⟩
    rw [List.getElem?_cons_succ, hi]
    exact hvalue
  · rintro ⟨i, hi, hvalue⟩
    obtain ⟨k, rfl⟩ := Nat.exists_eq_add_of_le' hi
    rw [List.getElem?_cons_succ] at hvalue
    obtain ⟨field, hfield, hdenoted⟩ := Option.bind_eq_some_iff.1 hvalue
    exact ⟨field, List.mem_of_getElem? hfield, hdenoted⟩

/-- A reply advertises what stands behind its first parameter. -/
theorem advertises_reply (b64 : Base64.Codec) (offset : ℕ) {value : UInt16} :
    (fields.reply.response b64 offset).advertises value = true ↔ value ∈ fields.values.tail := by
  have hne : 1 ≤ fields.values.length := List.length_pos_of_ne_nil fields.reply.some_parameter
  have hslice : Slices.sliceFrom? fields.values 1 = some (fields.values.drop 1) :=
    Slices.sliceFrom?_eq_some_iff.2 ⟨hne, rfl⟩
  have hparameters : (fields.reply.response b64 offset).parameters = fields.values := rfl
  rw [Da1.Da1Response.advertises, hparameters, hslice, List.drop_one]
  simp

end Da1Fields

/-- **A reply is read by positions**: it is parsed as a whole wherever it stands, its first field is
the device level, the others are the extensions, and a stream that consists of it makes Sixel
available when the extension of Sixel is among them. -/
structure Positional (b64 : Base64.Codec) (fields : Da1Fields) (before after : Bytes) : Prop where
  parsed : ∃ response,
    Da1.parseResponseAt b64 (before ++ fields.bytes ++ after) before.length = some response ∧
      response.endOffset = before.length + fields.bytes.length ∧
      response.deviceLevel = fields.at_ 0 ∧
      ∀ extension, response.advertises extension = true ↔
        ∃ i, 1 ≤ i ∧ fields.at_ i = some extension
  sixel : (Sixel.parseExchange b64 fields.bytes).assessment.availability = .available ↔
    ∃ i, 1 ≤ i ∧ fields.at_ i = some 4

theorem available_bytes_iff (b64 : Base64.Codec) (fields : Da1Fields) :
    (Sixel.parseExchange b64 fields.bytes).assessment.availability = .available ↔
      4 ∈ fields.values.tail := by
  rw [← fields.advertises_reply b64 0, Sixel.parseExchange, fields.parseResponses_bytes]
  simp only [List.any_cons, List.any_nil, Bool.or_false, Sixel.SIXEL_DA1_EXTENSION]
  cases (fields.reply.response b64 0).advertises 4 <;> simp

/-- **The fields keep their positions** when the first one is not empty, and only then. -/
theorem device_fields_positional_iff (b64 : Base64.Codec) (fields : Da1Fields)
    (before after : Bytes) :
    Positional b64 fields before after ↔ fields.at_ 0 ≠ none := by
  obtain ⟨first, rest, hfields⟩ := fields.exists_cons
  have hat : fields.at_ 0 = denoted first := by
    rw [Da1Fields.at_, hfields]
    rfl
  have hlevel : (fields.reply.response b64 before.length).deviceLevel = fields.values.head? := rfl
  constructor
  · rintro ⟨⟨response, hparsed, -, hfirst, -⟩, -⟩ hnone
    rw [fields.parseResponseAt_append] at hparsed
    obtain rfl := Option.some.inj hparsed
    rw [hlevel, hnone, List.head?_eq_none_iff] at hfirst
    exact fields.reply.some_parameter hfirst
  · intro hsome
    obtain ⟨level, hdenoted⟩ := Option.ne_none_iff_exists'.1 (hat ▸ hsome)
    have hvalues : fields.values = level :: rest.filterMap denoted := by
      rw [Da1Fields.values, hfields, List.filterMap_cons, hdenoted]
    refine ⟨⟨_, fields.parseResponseAt_append b64 before after, rfl, ?_, ?_⟩, ?_⟩
    · rw [hlevel, hvalues, hat, hdenoted]
      rfl
    · intro extension
      rw [fields.advertises_reply, hvalues, List.tail_cons, Da1Fields.mem_filterMap_iff hfields]
    · rw [available_bytes_iff, hvalues, List.tail_cons, Da1Fields.mem_filterMap_iff hfields]

/-- The fields of `;4`. -/
def defaultLevelFields : Da1Fields :=
  { fields := [[], ['4']]
    decimal := by simp
    bounded := by simp; decide
    some_field := ⟨['4'], by simp, by simp⟩ }

/-- An extension behind an empty device level is taken for the level. -/
theorem extension_taken_for_level :
    ¬ ∀ fields : Da1Fields, ∀ before after, Positional Base64.standard fields before after := by
  intro h
  obtain ⟨⟨response, hparsed, -, hlevel, -⟩, -⟩ := h defaultLevelFields [] []
  rw [Da1Fields.parseResponseAt_append] at hparsed
  obtain rfl := Option.some.inj hparsed
  have hread : (defaultLevelFields.reply.response Base64.standard 0).deviceLevel = some 4 := by
    rfl
  have hempty : defaultLevelFields.at_ 0 = none := rfl
  rw [List.length_nil, hread, hempty] at hlevel
  cases hlevel

end TermInterop
