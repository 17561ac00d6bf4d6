/-
Displaying an image: the chunks of a transmit-and-display sequence.

The bytes of an image are encoded, the encoding is cut into chunks of 4096 bytes, and every chunk is
the payload of one command.  The first command carries the placement; every command says whether
another one follows.  A reader splits the sequence at the terminators of its commands, and no
terminator stands inside a command, so the split is the one that was intended.

Main definitions:

* `TermInterop.Kgp.encodePngDisplay` — the sequence;
* `TermInterop.Kgp.Command`, `TermInterop.Kgp.commandLexicon` — commands as tokens of a stream.

Main results:

* `TermInterop.Kgp.prefixFree_commandLexicon` — a stream of commands is split in one way;
* `TermInterop.Kgp.parseControlFields_controlText` — what a written control part is read as;
* `TermInterop.png_display_exact` — **what the sequence consists of**.
-/

import TermInterop.Kgp

set_option relaxedAutoImplicit false
set_option autoImplicit false

namespace TermInterop

namespace Kgp

/-! ### The sequence -/

/-- Placement options for one direct PNG display command. -/
structure PngDisplayOptions where
  imageNumber : UInt32
  columns : UInt16
  rows : UInt16
  deriving DecidableEq

/-- Display command construction failure. -/
inductive DisplayBuildError
  | emptyPayload
  | zeroImageNumber
  | zeroPlacement
  deriving DecidableEq

/-- The greatest number of bytes of a payload. -/
def CHUNK : ℕ := 4096

/-- What stands in front of the payload of a command. -/
def displayHeader (options : PngDisplayOptions) (index more : ℕ) : String :=
  if index = 0 then
    "\x1b_Ga=T,f=100,I=" ++ Nat.repr options.imageNumber.toNat ++ ",c=" ++
      Nat.repr options.columns.toNat ++ ",r=" ++ Nat.repr options.rows.toNat ++
      ",C=1,N=1,q=2,m=" ++ Nat.repr more ++ ";"
  else "\x1b_Gm=" ++ Nat.repr more ++ ",q=2;"

/-- Whether another chunk follows, as a number. -/
def moreFlag (index count : ℕ) : ℕ := if index + 1 < count then 1 else 0

/-- **Encode PNG bytes as a chunked direct KGP transmit-and-display sequence.** -/
def encodePngDisplay (png : Bytes) (options : PngDisplayOptions) :
    Except DisplayBuildError Bytes :=
  if png = [] then .error .emptyPayload
  else if options.columns = 0 ∨ options.rows = 0 then .error .zeroPlacement
  else if options.imageNumber = 0 then .error .zeroImageNumber
  else
    let encoded := Text.asBytes (Base64.standard.encode png)
    let chunks := Text.chunks CHUNK encoded
    .ok (chunks.mapIdx fun index chunk =>
      Text.asBytes (displayHeader options index (moreFlag index chunks.length)) ++ chunk ++
        ST).flatten

/-! ### Commands -/

/-- A command: a control part and a payload, with a terminator in neither of them. -/
structure Command where
  control : Bytes
  payload : Bytes
  unsplit : ascii ';' ∉ control
  unterminated : ¬ ST <:+: control ++ ascii ';' :: payload

namespace Command

/-- The bytes of a command. -/
def bytes (command : Command) : Bytes :=
  apcIntro ++ command.control ++ ascii ';' :: command.payload ++ ST

end Command

/-- The commands. -/
def commandLexicon : Lexing.Lexicon UInt8 Command where
  bytes := Command.bytes
  nonempty command := by simp [Command.bytes, apcIntro]

/-- A body in front of a terminator does not begin with another body in front of one. -/
theorem eq_of_append_ST_prefix {body body' : Bytes} (h : body ++ ST <+: body' ++ ST)
    (hclean : ¬ ST <:+: body') : body = body' := by
  have hlen := h.length_le
  simp only [List.length_append, Nat.add_le_add_iff_right] at hlen
  have hbody : body <+: body' := List.prefix_of_prefix_length_le
    ((List.prefix_append _ _).trans h) (List.prefix_append _ _) hlen
  rcases Nat.eq_or_lt_of_le hlen with heq | hlt
  · exact hbody.eq_of_length heq
  · have hnowhere : ∀ j < body'.length, ¬ ST <+: (body' ++ ST ++ []).drop j :=
      forall_not_prefix_iff.2 hclean
    refine absurd ?_ (hnowhere body.length hlt)
    obtain ⟨rest, hrest⟩ := h
    refine ⟨rest, ?_⟩
    rw [List.append_nil, ← hrest, List.append_assoc, List.drop_left]

/-- **No command begins with another one.** -/
theorem prefixFree_commandLexicon : commandLexicon.PrefixFree := by
  intro first second h
  obtain ⟨control, payload, unsplit, unterminated⟩ := first
  obtain ⟨control', payload', unsplit', unterminated'⟩ := second
  have hbody : (control ++ ascii ';' :: payload) ++ ST <+:
      (control' ++ ascii ';' :: payload') ++ ST := by
    have h' : apcIntro ++ ((control ++ ascii ';' :: payload) ++ ST) <+:
        apcIntro ++ ((control' ++ ascii ';' :: payload') ++ ST) := by
      simpa [commandLexicon, Command.bytes] using h
    exact (List.prefix_append_right_inj _).1 h'
  have heq := eq_of_append_ST_prefix hbody unterminated'
  -- the two bodies split at their first semicolon
  have hsplit : Text.splitOnce (ascii ';') (control ++ ascii ';' :: payload) =
      some (control, payload) := Text.splitOnce_eq_some_iff.2 ⟨rfl, unsplit⟩
  have hsplit' : Text.splitOnce (ascii ';') (control ++ ascii ';' :: payload) =
      some (control', payload') := by
    rw [heq]
    exact Text.splitOnce_eq_some_iff.2 ⟨rfl, unsplit'⟩
  obtain ⟨rfl, rfl⟩ := Prod.mk.inj (Option.some_inj.1 (hsplit.symm.trans hsplit'))
  rfl

/-! ### Control parts -/

/-- A control part: its fields, separated by commas. -/
def controlText (fields : List (String × String)) : String :=
  ",".intercalate (fields.map fun field => field.1 ++ "=" ++ field.2)

/-- The fields of a control part, in order. -/
def controlFields (control : Bytes) : List (String × String) :=
  ((Utf8Lossy.decode control).splitOn ',').filterMap parseField

/-- A character that can stand in a control part. -/
def IsControlCharacter (c : Char) : Prop := 0x20 ≤ c.toNat ∧ c.toNat < 128 ∧ c ≠ ';'

/-- A field that can be written: a key and a value without the separators of a control part. -/
structure Writable (field : String × String) : Prop where
  characters : ∀ c ∈ field.1.toList ++ field.2.toList, IsControlCharacter c
  comma : ',' ∉ field.1.toList ++ field.2.toList
  equals : '=' ∉ field.1.toList
  key : field.1.toList ≠ []

/-- The characters of a control part. -/
theorem toList_controlText (fields : List (String × String)) : (controlText fields).toList =
    [','].intercalate (fields.map fun field => field.1.toList ++ '=' :: field.2.toList) := by
  rw [controlText, String.toList_intercalate, List.map_map]
  congr 1
  refine List.map_congr_left fun field _ => ?_
  simp

theorem isControlCharacter_of_mem_controlText {fields : List (String × String)}
    (hwritable : ∀ field ∈ fields, Writable field) :
    ∀ c ∈ (controlText fields).toList, IsControlCharacter c := by
  intro c hc
  rw [toList_controlText] at hc
  rcases Text.mem_of_mem_intercalate hc with rfl | ⟨text, htext, hmem⟩
  · exact ⟨by decide, by decide, by decide⟩
  · obtain ⟨field, hfield, rfl⟩ := List.mem_map.1 htext
    have hcharacters := (hwritable field hfield).characters
    rw [List.mem_append, List.mem_cons] at hmem
    rcases hmem with hkey | rfl | hvalue
    · exact hcharacters c (List.mem_append_left _ hkey)
    · exact ⟨by decide, by decide, by decide⟩
    · exact hcharacters c (List.mem_append_right _ hvalue)

/-- **A written control part is read as it was written.** -/
theorem controlFields_controlText {fields : List (String × String)} (hne : fields ≠ [])
    (hwritable : ∀ field ∈ fields, Writable field) :
    controlFields (Text.asBytes (controlText fields)) = fields := by
  have hascii : ∀ c ∈ (controlText fields).toList, c.toNat < 128 := fun c hc =>
    (isControlCharacter_of_mem_controlText hwritable c hc).2.1
  have hsplit : (controlText fields).toList.splitOn ',' =
      fields.map fun field => field.1.toList ++ '=' :: field.2.toList := by
    rw [toList_controlText]
    refine List.splitOn_intercalate ',' ?_ (by simpa using hne)
    intro text htext
    obtain ⟨field, hfield, rfl⟩ := List.mem_map.1 htext
    have hcomma := (hwritable field hfield).comma
    simp only [List.mem_append, List.mem_cons, not_or] at hcomma ⊢
    exact ⟨hcomma.1, by decide, hcomma.2⟩
  rw [controlFields, Utf8Lossy.decode_asBytes hascii, hsplit, List.filterMap_map]
  have hfields : ∀ field ∈ fields, (parseField ∘ fun field : String × String =>
      field.1.toList ++ '=' :: field.2.toList) field = some field := by
    intro field hfield
    exact parseField_eq_some_iff.2
      ⟨rfl, (hwritable field hfield).equals, (hwritable field hfield).key⟩
  rw [List.filterMap_congr hfields, List.filterMap_some]

/-- The fields of a command: those of the placement in the first one, and whether another command
follows. -/
def displayFields (options : PngDisplayOptions) (index more : ℕ) : List (String × String) :=
  if index = 0 then
    [("a", "T"), ("f", "100"), ("I", Nat.repr options.imageNumber.toNat),
      ("c", Nat.repr options.columns.toNat), ("r", Nat.repr options.rows.toNat), ("C", "1"),
      ("N", "1"), ("q", "2"), ("m", Nat.repr more)]
  else [("m", Nat.repr more), ("q", "2")]

theorem writable_repr {key : String} (hkey : Writable (key, "")) (n : ℕ) :
    Writable (key, Nat.repr n) := by
  have hdigit : ∀ c ∈ (Nat.repr n).toList, 48 ≤ c.toNat ∧ c.toNat ≤ 57 := fun c hc =>
    Text.isDigit_iff.1 (Text.isDigit_of_mem_repr hc)
  refine ⟨?_, ?_, hkey.equals, hkey.key⟩
  · intro c hc
    rcases List.mem_append.1 hc with hc | hc
    · exact hkey.characters c (List.mem_append_left _ hc)
    · obtain ⟨hlow, hhigh⟩ := hdigit c hc
      refine ⟨by omega, by omega, ?_⟩
      rintro rfl
      exact absurd hhigh (by decide)
  · rw [List.mem_append, not_or]
    exact ⟨fun hmem => hkey.comma (List.mem_append_left _ hmem),
      fun hmem => absurd (hdigit _ hmem).1 (by decide)⟩

theorem writable_displayFields (options : PngDisplayOptions) (index more : ℕ) :
    ∀ field ∈ displayFields options index more, Writable field := by
  intro field hfield
  unfold displayFields at hfield
  split at hfield <;> simp only [List.mem_cons, List.not_mem_nil, or_false] at hfield
  · rcases hfield with rfl | rfl | rfl | rfl | rfl | rfl | rfl | rfl | rfl
    case inr.inr.inl | inr.inr.inr.inl | inr.inr.inr.inr.inl | inr.inr.inr.inr.inr.inr.inr.inr =>
      refine writable_repr ⟨?_, ?_, ?_, ?_⟩ _ <;> simp [IsControlCharacter]
    all_goals constructor <;> simp [IsControlCharacter]
  · rcases hfield with rfl | rfl
    · refine writable_repr ⟨?_, ?_, ?_, ?_⟩ _ <;> simp [IsControlCharacter]
    · constructor <;> simp [IsControlCharacter]

theorem asBytes_displayHeader (options : PngDisplayOptions) (index more : ℕ) :
    Text.asBytes (displayHeader options index more) =
      apcIntro ++ Text.asBytes (controlText (displayFields options index more)) ++ [ascii ';'] := by
  have hintro : apcIntro = Text.asBytes "\x1b_G" := by decide
  have hsemi : [ascii ';'] = Text.asBytes ";" := by decide
  rw [hintro, hsemi, ← Text.asBytes_append, ← Text.asBytes_append]
  congr 1
  refine String.toList_inj.1 ?_
  unfold displayHeader displayFields
  split
  · simp [toList_controlText, List.intercalate]
  · simp [toList_controlText, List.intercalate]

/-! ### The commands of the sequence -/

/-- The bytes of a control part are neither the separator of the payload nor the escape byte. -/
theorem clean_controlText {fields : List (String × String)}
    (hwritable : ∀ field ∈ fields, Writable field) :
    ∀ b ∈ Text.asBytes (controlText fields), b.toNat < 128 ∧ b ≠ ascii ';' ∧ b ≠ ESC := by
  rw [Text.forall_mem_asBytes_iff fun b hb => hb.1]
  intro c hc
  obtain ⟨hlow, hhigh, hne⟩ := isControlCharacter_of_mem_controlText hwritable c hc
  have hbyte : (ascii c).toNat = c.toNat := by
    rw [ascii, Text.asciiByte, UInt8.toNat_ofNat', Nat.mod_eq_of_lt (by omega)]
  refine ⟨hhigh, by rw [hbyte]; exact hhigh, fun heq => hne ?_, fun heq => ?_⟩
  · have hval := congrArg UInt8.toNat heq
    rw [hbyte] at hval
    exact Char.toNat_inj.1 hval
  · have hval := congrArg UInt8.toNat heq
    rw [hbyte] at hval
    have hesc : ESC.toNat = 27 := rfl
    omega

/-- The bytes of an encoding do not contain the escape byte. -/
theorem clean_encode (png : Bytes) : ∀ b ∈ Text.asBytes (Base64.standard.encode png),
    b.toNat < 128 ∧ b ≠ ESC := by
  have hdigit : ∀ v, ascii (Base64.standardAlphabet.digit v) ≠ ESC := by decide +kernel
  rw [Text.forall_mem_asBytes_iff fun b hb => hb.1]
  intro c hc
  have hmem : c ∈ Base64.encodeWith Base64.standardAlphabet true png := by
    simpa [Base64.standard, Base64.encodeString] using hc
  have hascii := Base64.ascii_encodeWith _ _ _ c hmem
  refine ⟨hascii, ?_, ?_⟩
  · rw [Text.asciiByte, UInt8.toNat_ofNat', Nat.mod_eq_of_lt (by omega)]
    exact hascii
  · obtain ⟨v, rfl⟩ | ⟨-, rfl⟩ := Base64.mem_encodeWith hmem
    · exact hdigit v
    · decide

/-- Bytes without an escape byte contain no terminator. -/
theorem not_ST_infix_of_clean {bytes : Bytes} (h : ESC ∉ bytes) : ¬ ST <:+: bytes := by
  intro hinside
  exact h (hinside.subset (by simp [ST]))

/-- The command of a chunk. -/
def displayCommand (options : PngDisplayOptions) (index more : ℕ) (chunk : Bytes)
    (clean : ESC ∉ chunk) : Command where
  control := Text.asBytes (controlText (displayFields options index more))
  payload := chunk
  unsplit hmem := (clean_controlText (writable_displayFields options index more) _ hmem).2.1 rfl
  unterminated := by
    refine not_ST_infix_of_clean fun hmem => ?_
    rw [List.mem_append, List.mem_cons] at hmem
    rcases hmem with hmem | hmem | hmem
    · exact (clean_controlText (writable_displayFields options index more) _ hmem).2.2 rfl
    · exact absurd hmem (by decide)
    · exact clean hmem

theorem bytes_displayCommand (options : PngDisplayOptions) (index more : ℕ) (chunk : Bytes)
    (clean : ESC ∉ chunk) : (displayCommand options index more chunk clean).bytes =
      Text.asBytes (displayHeader options index more) ++ chunk ++ ST := by
  rw [asBytes_displayHeader]
  simp [Command.bytes, displayCommand]

theorem displayFields_ne_nil (options : PngDisplayOptions) (index more : ℕ) :
    displayFields options index more ≠ [] := by
  unfold displayFields
  split <;> simp

theorem clean_of_mem_chunks {bytes : Bytes} (h : ∀ b ∈ bytes, b ≠ ESC) {chunk : Bytes}
    (hchunk : chunk ∈ Text.chunks CHUNK bytes) : ESC ∉ chunk := fun hmem =>
  (Text.forall_mem_chunks (P := fun b => b ≠ ESC) (by decide)).2 h chunk hchunk _ hmem rfl

/-- The commands of the chunks of a text without escape bytes. -/
def displayCommands (options : PngDisplayOptions) (encoded : Bytes)
    (clean : ∀ b ∈ encoded, b ≠ ESC) : List Command :=
  (Text.chunks CHUNK encoded).attach.mapIdx fun index chunk =>
    displayCommand options index (moreFlag index (Text.chunks CHUNK encoded).length) chunk.1
      (clean_of_mem_chunks clean chunk.2)

section Commands

variable {options : PngDisplayOptions} {encoded : Bytes} {clean : ∀ b ∈ encoded, b ≠ ESC}

theorem length_displayCommands :
    (displayCommands options encoded clean).length = encoded.length ⌈/⌉ CHUNK := by
  rw [displayCommands, List.length_mapIdx, List.length_attach, Text.length_chunks (by decide)]

/-- What the command at a position is. -/
theorem getElem?_displayCommands {index : ℕ} {command : Command}
    (h : (displayCommands options encoded clean)[index]? = some command) :
    command.control = Text.asBytes (controlText (displayFields options index
        (moreFlag index (displayCommands options encoded clean).length))) ∧
      (Text.chunks CHUNK encoded)[index]? = some command.payload := by
  have hlength : (displayCommands options encoded clean).length =
      (Text.chunks CHUNK encoded).length := by
    rw [displayCommands, List.length_mapIdx, List.length_attach]
  rw [hlength]
  rw [displayCommands, List.getElem?_mapIdx, Option.map_eq_some_iff] at h
  obtain ⟨⟨chunk, hmem⟩, hchunk, rfl⟩ := h
  refine ⟨rfl, ?_⟩
  have hval := congrArg (Option.map Subtype.val) hchunk
  rwa [← List.getElem?_map, List.attach_map_subtype_val] at hval

/-- The length of the payload at a position: a full chunk, or what is left. -/
theorem length_payload_displayCommands {index : ℕ} {command : Command}
    (h : (displayCommands options encoded clean)[index]? = some command) :
    index * 4096 < encoded.length ∧
      command.payload.length = min 4096 (encoded.length - index * 4096) :=
  Text.length_of_getElem?_chunks (by decide) (getElem?_displayCommands h).2

/-- The payloads are the text. -/
theorem flatMap_payload_displayCommands :
    (displayCommands options encoded clean).flatMap Command.payload = encoded := by
  have hpayloads : (displayCommands options encoded clean).map Command.payload =
      Text.chunks CHUNK encoded := by
    refine List.ext_getElem? fun index => ?_
    rw [displayCommands, List.getElem?_map, List.getElem?_mapIdx, Option.map_map]
    have hval := List.getElem?_map (f := Subtype.val) (l := (Text.chunks CHUNK encoded).attach)
      (i := index)
    rw [List.attach_map_subtype_val] at hval
    exact hval.symm
  rw [List.flatMap_def, hpayloads, Text.flatten_chunks (by decide)]

/-- The bytes of the commands are the sequence. -/
theorem flatMap_bytes_displayCommands :
    (displayCommands options encoded clean).flatMap Command.bytes =
      ((Text.chunks CHUNK encoded).mapIdx fun index chunk =>
        Text.asBytes (displayHeader options index
          (moreFlag index (Text.chunks CHUNK encoded).length)) ++ chunk ++ ST).flatten := by
  rw [List.flatMap_def]
  congr 1
  refine List.ext_getElem? fun index => ?_
  have hval := List.getElem?_map (f := Subtype.val) (l := (Text.chunks CHUNK encoded).attach)
    (i := index)
  rw [List.attach_map_subtype_val] at hval
  rw [displayCommands, List.getElem?_map, List.getElem?_mapIdx, Option.map_map,
    List.getElem?_mapIdx, hval, Option.map_map]
  refine congrArg (fun f => Option.map f _) (funext fun chunk => ?_)
  exact bytes_displayCommand options index _ chunk.1 _

end Commands

end Kgp

/-- **What a transmit-and-display sequence consists of.**  It is split into commands in one way.
There is one command for every started group of 4096 bytes of the encoding; every payload is full
but the last one, and consists of whole Base64 groups.  The first command carries the placement, and
all but the last one announce another.  The payloads together encode the image. -/
theorem png_display_exact (png : Bytes) (options : Kgp.PngDisplayOptions) (hpng : png ≠ [])
    (hnumber : options.imageNumber ≠ 0) (hcolumns : options.columns ≠ 0)
    (hrows : options.rows ≠ 0) :
    ∃ output commands, Kgp.encodePngDisplay png options = .ok output ∧
      (commands.flatMap Kgp.Command.bytes = output ∧
        ∀ commands' : List Kgp.Command, commands'.flatMap Kgp.Command.bytes = output →
          commands' = commands) ∧
      commands.length = (Text.asBytes (Base64.standard.encode png)).length ⌈/⌉ 4096 ∧
      (∀ command ∈ commands, 1 ≤ command.payload.length ∧ command.payload.length ≤ 4096 ∧
        command.payload.length % 4 = 0) ∧
      (∀ command ∈ commands.dropLast, command.payload.length = 4096) ∧
      (∀ k command, commands[k]? = some command →
        Kgp.controlFields command.control =
          let more := Nat.repr (if k + 1 = commands.length then 0 else 1)
          if k = 0 then
            [("a", "T"), ("f", "100"), ("I", Nat.repr options.imageNumber.toNat),
              ("c", Nat.repr options.columns.toNat), ("r", Nat.repr options.rows.toNat),
              ("C", "1"), ("N", "1"), ("q", "2"), ("m", more)]
          else [("m", more), ("q", "2")]) ∧
      Base64.standard.decode (String.ofList
        (Utf8Lossy.decode (commands.flatMap Kgp.Command.payload))) = some png := by
  have hclean : ∀ b ∈ Text.asBytes (Base64.standard.encode png), b ≠ ESC := fun b hb =>
    (Kgp.clean_encode png b hb).2
  have hlength : (Text.asBytes (Base64.standard.encode png)).length =
      4 * ((png.length + 2) / 3) := Base64.length_standard_encode png
  have hsuccess : ¬ (options.columns = 0 ∨ options.rows = 0) := not_or.2 ⟨hcolumns, hrows⟩
  refine ⟨_, Kgp.displayCommands options _ hclean, ?_, ⟨Kgp.flatMap_bytes_displayCommands, ?_⟩,
    Kgp.length_displayCommands, ?_, ?_, ?_, ?_⟩
  · unfold Kgp.encodePngDisplay
    rw [if_neg hpng, if_neg hsuccess, if_neg hnumber]
  · intro commands' h
    exact Lexing.Lexicon.flatMap_bytes_injective Kgp.prefixFree_commandLexicon
      (h.trans Kgp.flatMap_bytes_displayCommands.symm)
  · intro command hmem
    obtain ⟨index, hindex⟩ := List.mem_iff_getElem?.1 hmem
    obtain ⟨hlt, hlen⟩ := Kgp.length_payload_displayCommands hindex
    omega
  · intro command hmem
    obtain ⟨index, hindex⟩ := List.mem_iff_getElem?.1 hmem
    rw [List.getElem?_dropLast] at hindex
    split at hindex
    · rename_i hlast
      obtain ⟨-, hlen⟩ := Kgp.length_payload_displayCommands hindex
      -- there is another chunk, so this one is full
      obtain ⟨hnext, -⟩ := Kgp.length_payload_displayCommands
        (List.getElem?_eq_getElem
          (show index + 1 < (Kgp.displayCommands options _ hclean).length by omega))
      omega
    · cases hindex
  · intro k command hk
    have hlt : k < (Kgp.displayCommands options _ hclean).length :=
      (List.getElem?_eq_some_iff.1 hk).1
    rw [(Kgp.getElem?_displayCommands hk).1,
      Kgp.controlFields_controlText (Kgp.displayFields_ne_nil options k _)
        (Kgp.writable_displayFields options k _), Kgp.displayFields, Kgp.moreFlag]
    have hmore : (if k + 1 < (Kgp.displayCommands options _ hclean).length then 1 else 0) =
        if k + 1 = (Kgp.displayCommands options _ hclean).length then 0 else 1 := by
      split_ifs <;> omega
    rw [hmore]
  · rw [Kgp.flatMap_payload_displayCommands,
      Utf8Lossy.decode_asBytes (Base64.ascii_standard_encode png), String.ofList_toList,
      Base64.Codec.decode_encode]

/-- An image whose encoding is one byte longer than a chunk fits two commands. -/
theorem png_display_exact_two : ∃ (output : Bytes) (commands : List Kgp.Command),
    Kgp.encodePngDisplay (List.replicate 3073 0xab) ⟨17, 80, 24⟩ = .ok output ∧
      commands.flatMap Kgp.Command.bytes = output ∧ commands.length = 2 := by
  obtain ⟨output, commands, hencode, ⟨hbytes, -⟩, hlength, -⟩ := png_display_exact
    (List.replicate 3073 0xab) ⟨17, 80, 24⟩
    (List.ne_nil_of_length_pos (by rw [List.length_replicate]; decide)) (by decide)
    (by decide) (by decide)
  refine ⟨output, commands, hencode, hbytes, hlength.trans ?_⟩
  rw [Base64.length_standard_encode, List.length_replicate]
  rfl

end TermInterop
