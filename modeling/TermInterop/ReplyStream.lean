/-
Reply streams: what the parser makes of a stream that a terminal can send.

A terminal sends protocol replies and barrier replies, and other bytes between them.  A stream is a
list of segments, each carrying the reason why it is what it is: noise and the bodies of frames
contain no escape byte, and the fields of a barrier reply are decimal numbers.  The parser sees
exactly these segments, whatever their number and order.

A reader never holds the whole stream but a prefix of it, cut anywhere.  Such a prefix is a list of
complete segments and the beginning of one more, and in a beginning nothing is recognized.  So the
parser sees the complete segments of a prefix and nothing else, and the verdict only depends on
which segments these are.

Main definitions:

* `TermInterop.Da1Fields`, `TermInterop.Segment`, `TermInterop.render` — streams;
* `TermInterop.Inert` — bytes in which nothing is recognized;
* `TermInterop.Answered` — the stream answers a query before its barrier.

Main results:

* `TermInterop.observe_render` — **the parser sees the segments**;
* `TermInterop.exists_complete_of_prefix` — what a prefix of a stream consists of;
* `TermInterop.verdict_of_stream` — **the verdict does not depend on how the stream is cut**.
-/

import TermInterop.TtyExchange

set_option relaxedAutoImplicit false
set_option autoImplicit false

namespace TermInterop

/-! ### Segments -/

/-- The fields of a barrier reply: each of them is empty or a decimal `u16`, and at least one is
not empty. -/
structure Da1Fields where
  fields : List (List Char)
  decimal : ∀ field ∈ fields, ∀ c ∈ field, c.isDigit = true
  bounded : ∀ field ∈ fields, Nat.ofDigitChars 10 field 0 ≤ 2 ^ 16 - 1
  some_field : ∃ field ∈ fields, field ≠ []

/-- The number that a field denotes; an empty field denotes none. -/
def denoted (field : List Char) : Option UInt16 :=
  if field = [] then none else some (UInt16.ofNat (Nat.ofDigitChars 10 field 0))

/-- The numbers that the fields denote, in order. -/
def Da1Fields.values (fields : Da1Fields) : List UInt16 := fields.fields.filterMap denoted

/-- The text of the fields, separated by semicolons. -/
def Da1Fields.text (fields : Da1Fields) : List Char := [';'].intercalate fields.fields

/-- The bytes of the fields. -/
def Da1Fields.run (fields : Da1Fields) : Bytes := fields.text.map ascii

/-- The body of a protocol reply: a control part, and possibly a payload behind a semicolon. -/
def bodyOf (control : Bytes) (payload : Option Bytes) : Bytes :=
  match payload with
  | none => control
  | some payload => control ++ ascii ';' :: payload

/-- One segment of a stream. -/
inductive Segment
  | noise (bytes : Bytes) (clean : ESC ∉ bytes)
  | frame (control : Bytes) (payload : Option Bytes) (unsplit : ascii ';' ∉ control)
      (clean : ESC ∉ bodyOf control payload)
  | barrier (fields : Da1Fields)

namespace Segment

/-- The bytes of a segment. -/
def bytes : Segment → Bytes
  | noise bytes _ => bytes
  | frame control payload _ _ => Kgp.apcIntro ++ bodyOf control payload ++ Kgp.ST
  | barrier fields => Da1.replyIntro ++ fields.run ++ [ascii 'c']

/-- A barrier reply. -/
def IsBarrier : Segment → Prop
  | barrier _ => True
  | _ => False

/-- A protocol reply that names the identifier. -/
def Names (correlationId : UInt32) : Segment → Prop
  | frame control _ _ _ => Kgp.Correlates correlationId control
  | _ => False

end Segment

/-- The bytes of a stream. -/
def render (segments : List Segment) : Bytes := segments.flatMap Segment.bytes

@[simp] theorem render_nil : render [] = [] := rfl

@[simp] theorem render_cons (segment : Segment) (segments : List Segment) :
    render (segment :: segments) = segment.bytes ++ render segments := rfl

@[simp] theorem render_append (segments segments' : List Segment) :
    render (segments ++ segments') = render segments ++ render segments' := by
  simp [render]

/-! ### The fields of a barrier reply -/

section Fields

variable (fields : Da1Fields)

/-- The characters of the fields are digits and semicolons. -/
theorem Da1Fields.mem_text {c : Char} (h : c ∈ fields.text) : c.isDigit = true ∨ c = ';' := by
  rcases Text.mem_of_mem_intercalate h with hsep | ⟨field, hfield, hc⟩
  · exact Or.inr hsep
  · exact Or.inl (fields.decimal field hfield c hc)

theorem Da1Fields.text_ascii {c : Char} (h : c ∈ fields.text) : c.toNat < 0x80 := by
  rcases fields.mem_text h with hdigit | rfl
  · have hle := (Text.isDigit_iff.1 hdigit).2
    omega
  · decide

/-- The bytes of the fields are bytes of a parameter run. -/
theorem Da1Fields.mem_run {b : UInt8} (h : b ∈ fields.run) : Da1.isParameterByte b = true := by
  obtain ⟨c, hc, rfl⟩ := List.mem_map.1 h
  rcases fields.mem_text hc with hdigit | rfl
  · obtain ⟨hlo, hhi⟩ := Text.isDigit_iff.1 hdigit
    have hval : (ascii c).toNat = c.toNat := by
      rw [ascii, Text.asciiByte, UInt8.toNat_ofNat']
      omega
    have h0 : (ascii '0').toNat = 48 := rfl
    have h9 : (ascii '9').toNat = 57 := rfl
    simp only [Da1.isParameterByte, Bool.or_eq_true, Bool.and_eq_true, decide_eq_true_eq,
      UInt8.le_iff_toNat_le, hval, h0, h9]
    exact Or.inl ⟨hlo, hhi⟩
  · decide

theorem Da1Fields.decode_run : Utf8Lossy.decode fields.run = fields.text :=
  (Utf8Lossy.decode_eq_iff fun _ hc => fields.text_ascii hc).2 rfl

/-- **The parser accepts the fields**: the parameters are what the fields denote that are not
empty. -/
theorem Da1Fields.parseParameters_text :
    Da1.parseParameters fields.text = some fields.values ∧ fields.values ≠ [] := by
  obtain ⟨witness, hwitness, hne⟩ := fields.some_field
  have hsplit : fields.text.splitOn ';' = fields.fields := by
    refine List.splitOn_intercalate ';' ?_ (List.ne_nil_of_mem hwitness)
    intro field hfield hsemi
    exact absurd (fields.decimal field hfield ';' hsemi) (by decide)
  have hparse : ∀ field ∈ fields.fields, field ≠ [] →
      parseU16 field = some (UInt16.ofNat (Nat.ofDigitChars 10 field 0)) := by
    intro field hmem hfieldne
    have hdigits := fields.decimal field hmem
    rw [parseU16, Text.parseUnsigned, Text.dropPlus_of_isDigit hdigits, if_pos]
    · rfl
    · exact ⟨hfieldne, List.all_eq_true.2 hdigits, fields.bounded field hmem⟩
  constructor
  · rw [Da1.parseParameters, hsplit, Da1Fields.values]
    generalize fields.fields = list at hparse
    induction list with
    | nil => rfl
    | cons field rest ih =>
        have hrest := ih fun f hf => hparse f (List.mem_cons_of_mem _ hf)
        by_cases hfield : field = []
        · simpa [hfield, denoted] using hrest
        · rw [List.filter_cons_of_pos (by simpa using hfield), List.mapM_cons,
            hparse field List.mem_cons_self hfield, hrest, List.filterMap_cons, denoted,
            if_neg hfield]
          rfl
  · have hdenoted : denoted witness = some (UInt16.ofNat (Nat.ofDigitChars 10 witness 0)) :=
      if_neg hne
    exact List.ne_nil_of_mem (List.mem_filterMap.2 ⟨witness, hwitness, hdenoted⟩)

end Fields

/-! ### The parser sees the segments -/

/-- The parameters of a barrier reply. -/
def Da1Fields.parameters (fields : Da1Fields) : List UInt16 :=
  (Da1.parseParameters fields.text).getD []

/-- The parsed barrier reply at an offset. -/
def Da1Fields.response (fields : Da1Fields) (b64 : Base64.Codec) (offset : ℕ) : Da1.Da1Response :=
  ⟨offset, offset + 3 + fields.run.length + 1, fields.parameters,
    String.ofList ('?' :: fields.text), b64.encode (Da1.replyIntro ++ fields.run ++ [ascii 'c'])⟩

/-- The event of a segment at an offset. -/
def Segment.event (b64 : Base64.Codec) (offset : ℕ) (sequence : UInt32) :
    Segment → Option Kgp.ObservedEvent
  | .noise _ _ => none
  | .frame control payload _ _ =>
      some ⟨offset, Kgp.apcEvent b64 sequence (bodyOf control payload)⟩
  | .barrier fields =>
      some ⟨offset, (fields.response b64 offset).wireEvent sequence .barrierReply⟩

/-- The events of a stream that begins at an offset. -/
def eventsOf (b64 : Base64.Codec) : ℕ → UInt32 → List Segment → List Kgp.ObservedEvent
  | _, _, [] => []
  | offset, sequence, segment :: rest =>
      match segment.event b64 offset sequence with
      | none => eventsOf b64 (offset + segment.bytes.length) sequence rest
      | some event =>
          event :: eventsOf b64 (offset + segment.bytes.length) (saturatingSucc sequence) rest

/-- Bytes in which nothing is recognized, whatever stands before them. -/
def Inert (tail : Bytes) : Prop :=
  ∀ j, (∀ body rest, tail.drop j ≠ Kgp.apcIntro ++ body ++ Kgp.ST ++ rest) ∧
    ∀ run rest, (∀ b ∈ run, Da1.isParameterByte b = true) →
      tail.drop j ≠ Da1.replyIntro ++ run ++ ascii 'c' :: rest

section Observe

variable {b64 : Base64.Codec} {input : Bytes} {sequence : UInt32}

/-- Nothing is recognized in inert bytes. -/
theorem find_eq_none_of_inert {before tail : Bytes} (htail : Inert tail) (j : ℕ) :
    Kgp.find b64 (before ++ tail) sequence (before.length + j) = none := by
  have hdrop : (before ++ tail).drop (before.length + j) = tail.drop j := by
    rw [← List.drop_drop, List.drop_left]
  rw [Option.eq_none_iff_forall_ne_some]
  intro hit hhit
  rcases Kgp.find_eq_some_iff.1 hhit with hapc | ⟨-, response, hda1, -⟩
  · obtain ⟨body, rest, heq, -⟩ := Kgp.parseApcEvent_eq_some_iff.1 hapc
    exact (htail j).1 body rest (hdrop.symm.trans heq)
  · obtain ⟨run, rest, _, heq, hrun, -⟩ := Da1.parseResponseAt_eq_some_iff.1 hda1
    exact (htail j).2 run rest hrun (hdrop.symm.trans heq)

/-- Nothing is recognized inside noise. -/
theorem find_noise {before rest bytes : Bytes} (clean : ESC ∉ bytes)
    (h : input = before ++ bytes ++ rest) {j : ℕ} (hj : j < bytes.length) :
    Kgp.find b64 input sequence (before.length + j) = none := by
  refine Kgp.find_eq_none_of_head ?_
  rw [h, List.append_assoc, ← List.drop_drop, List.drop_left,
    List.drop_append_of_le_length hj.le, List.head?_append_of_ne_nil _ (by simpa using hj),
    List.head?_drop]
  intro hhead
  exact clean (List.mem_of_getElem? hhead)

/-- A barrier reply is parsed where it stands. -/
theorem Da1Fields.parseResponseAt_bytes (fields : Da1Fields) {offset : ℕ} {rest : Bytes}
    (h : input.drop offset = (Segment.barrier fields).bytes ++ rest) :
    Da1.parseResponseAt b64 input offset = some (fields.response b64 offset) := by
  obtain ⟨hparse, hne⟩ := fields.parseParameters_text
  refine Da1.parseResponseAt_eq_some_iff.2
    ⟨fields.run, rest, fields.values, ?_, fun b hb => fields.mem_run hb, ?_, hne, ?_⟩
  · rw [h, Segment.bytes, List.append_assoc]
    rfl
  · rw [fields.decode_run, hparse]
  · rw [Da1Fields.response, Da1Fields.parameters, hparse, fields.decode_run]
    rfl

/-- A reply is recognized where it stands. -/
theorem find_segment {before rest : Bytes} {segment : Segment} {event : Kgp.ObservedEvent}
    (h : input = before ++ segment.bytes ++ rest)
    (hevent : segment.event b64 before.length sequence = some event) :
    Kgp.find b64 input sequence before.length =
      some (event, before.length + segment.bytes.length) := by
  have hdrop : input.drop before.length = segment.bytes ++ rest := by
    rw [h, List.append_assoc, List.drop_left]
  cases segment with
  | noise bytes clean => cases hevent
  | frame control payload unsplit clean =>
      obtain rfl := Option.some_inj.1 hevent
      have hfree : ¬ Kgp.ST <:+: bodyOf control payload := by
        intro hwithin
        exact clean (hwithin.subset List.mem_cons_self)
      refine Kgp.find_eq_some_iff.2 (Or.inl (Kgp.parseApcEvent_eq_some_iff.2
        ⟨bodyOf control payload, rest, hdrop, hfree, Prod.ext rfl ?_⟩))
      simp only [Segment.bytes, Kgp.apcIntro, Kgp.ST, List.length_append, List.length_cons,
        List.length_nil]
      omega
  | barrier fields =>
      obtain rfl := Option.some_inj.1 hevent
      -- the second byte tells the two kinds of reply apart
      have hnone : Kgp.parseApcEvent b64 input before.length sequence = none := by
        rw [Option.eq_none_iff_forall_ne_some]
        intro hit hhit
        obtain ⟨body, rest', heq, -⟩ := Kgp.parseApcEvent_eq_some_iff.1 hhit
        rw [hdrop, Segment.bytes, Da1.replyIntro, Kgp.apcIntro] at heq
        simp only [List.cons_append, List.cons.injEq] at heq
        exact absurd heq.2.1 (by decide)
      have hresponse : Da1.parseResponseAt b64 input before.length =
          some (fields.response b64 before.length) := fields.parseResponseAt_bytes hdrop
      refine Kgp.find_eq_some_iff.2 (Or.inr ⟨hnone, _, hresponse, Prod.ext rfl ?_⟩)
      simp only [Segment.bytes, Da1Fields.response, Da1.replyIntro, List.length_append,
        List.length_cons, List.length_nil]
      omega

/-- The scan from the beginning of a segment on. -/
theorem scanFrom_render (segments : List Segment) {before tail : Bytes} (htail : Inert tail)
    (h : input = before ++ render segments ++ tail) :
    ScanLoop.scanFrom (Kgp.recognizer b64 input) saturatingSucc input.length sequence
      before.length = eventsOf b64 before.length sequence segments := by
  induction segments generalizing before sequence with
  | nil =>
      rw [render_nil, List.append_nil] at h
      rw [ScanLoop.scanFrom_skip tail.length, ScanLoop.scanFrom_of_le]
      · rfl
      · rw [h, List.length_append]
      · intro j _
        rw [h]
        exact find_eq_none_of_inert htail j
  | cons segment rest ih =>
      have hsplit : input = before ++ segment.bytes ++ (render rest ++ tail) := by
        rw [h, render_cons]
        simp only [List.append_assoc]
      have hrest : ∀ sequence, ScanLoop.scanFrom (Kgp.recognizer b64 input) saturatingSucc
          input.length sequence (before ++ segment.bytes).length =
          eventsOf b64 (before ++ segment.bytes).length sequence rest := by
        intro sequence
        exact ih (by rw [hsplit, List.append_assoc _ (render rest)])
      rw [List.length_append] at hrest
      rw [eventsOf]
      cases hevent : segment.event b64 before.length sequence with
      | none =>
          -- only noise has no event
          cases segment with
          | noise bytes clean =>
              rw [ScanLoop.scanFrom_skip bytes.length]
              · exact hrest sequence
              · intro j hj
                exact find_noise clean hsplit hj
          | frame control payload unsplit clean => cases hevent
          | barrier fields => cases hevent
      | some event =>
          have hfind := find_segment hsplit hevent
          obtain ⟨-, -, hlt, hle⟩ := Kgp.find_bounds hfind
          rw [ScanLoop.scanFrom_hit (hlt.trans_le hle) hfind, hrest]

/-- **The parser sees the segments**, and nothing in the inert bytes behind them. -/
theorem observe_render (segments : List Segment) {tail : Bytes} (htail : Inert tail) :
    Kgp.observe b64 (render segments ++ tail) = eventsOf b64 0 0 segments := by
  have hscan := @scanFrom_render b64 _ 0 segments [] tail htail rfl
  exact hscan

end Observe

/-! ### Prefixes of a stream -/

/-- **What a prefix of a stream consists of**: complete segments, and the beginning of one more. -/
theorem exists_complete_of_prefix {segments : List Segment} {p : Bytes}
    (h : p <+: render segments) :
    ∃ complete rest tail, segments = complete ++ rest ∧ p = render complete ++ tail ∧
      (tail = [] ∨ ∃ segment more m, rest = segment :: more ∧ segment.bytes = tail ++ m ∧
        m ≠ []) := by
  induction segments generalizing p with
  | nil =>
      obtain rfl := List.prefix_nil.1 h
      exact ⟨[], [], [], rfl, rfl, Or.inl rfl⟩
  | cons segment rest ih =>
      obtain ⟨q, hq⟩ := h
      rw [render_cons] at hq
      rcases List.append_eq_append_iff.1 hq with ⟨m, hm, -⟩ | ⟨p', rfl, hp'⟩
      · -- the prefix ends inside the first segment, or with it
        rcases List.eq_nil_or_concat m with rfl | ⟨m', b, rfl⟩
        · refine ⟨[segment], rest, [], rfl, ?_, Or.inl rfl⟩
          rw [render_cons, render_nil, hm]
          simp
        · exact ⟨[], segment :: rest, p, rfl, rfl, Or.inr ⟨segment, rest, _, rfl, hm, by simp⟩⟩
      · obtain ⟨complete, rest', tail, rfl, rfl, htail⟩ := ih ⟨q, hp'.symm⟩
        refine ⟨segment :: complete, rest', tail, rfl, ?_, htail⟩
        rw [render_cons, List.append_assoc]

/-- Behind the first byte of a reply there is no escape byte but the one that ends a frame. -/
theorem length_le_one_of_drop (clean ending : Bytes) {more : Bytes} (hclean : ESC ∉ clean)
    (hending : ending.length ≤ 2) {j : ℕ} (hj : 0 < j)
    (h : (ESC :: (clean ++ ending)).drop j = ESC :: more) : more.length ≤ 1 := by
  obtain ⟨i, rfl⟩ : ∃ i, j = i + 1 := ⟨j - 1, by omega⟩
  rw [List.drop_succ_cons, List.drop_append] at h
  rcases Nat.lt_or_ge i clean.length with hlt | hge
  · have hhead := congrArg List.head? h
    rw [List.head?_append_of_ne_nil _ (by simpa using hlt), List.head?_drop] at hhead
    exact absurd (List.mem_of_getElem? hhead) hclean
  · have hlen := congrArg List.length h
    rw [List.drop_eq_nil_of_le hge] at hlen
    simp only [List.nil_append, List.length_drop, List.length_cons] at hlen
    omega

/-- In the beginning of a segment, an escape byte that more than one byte follows is the first
byte. -/
theorem eq_of_drop_beginning {segment : Segment} {tail m x : Bytes} (h : segment.bytes = tail ++ m)
    {j : ℕ} (hdrop : tail.drop j = ESC :: x) (hx : 2 ≤ x.length) : tail = ESC :: x := by
  have hj : j < tail.length := Slices.lt_length_of_drop_ne_nil (by rw [hdrop]; simp)
  have hbytes : segment.bytes.drop j = ESC :: (x ++ m) := by
    rw [h, List.drop_append_of_le_length hj.le, hdrop]
    rfl
  have hzero : j = 0 := by
    by_contra hne
    have hpos : 0 < j := Nat.pos_of_ne_zero hne
    have hlen : (x ++ m).length ≤ 1 := by
      cases segment with
      | noise bytes clean =>
          have hmem : ESC ∈ bytes.drop j := by
            rw [show bytes.drop j = ESC :: (x ++ m) from hbytes]
            exact List.mem_cons_self
          exact absurd (List.mem_of_mem_drop hmem) clean
      | frame control payload unsplit clean =>
          refine length_le_one_of_drop (ascii '_' :: ascii 'G' :: bodyOf control payload) Kgp.ST
            ?_ (le_refl 2) hpos hbytes
          simp only [List.mem_cons, not_or]
          exact ⟨by decide, by decide, clean⟩
      | barrier fields =>
          refine length_le_one_of_drop (ascii '[' :: ascii '?' :: (fields.run ++ [ascii 'c'])) []
            ?_ (by simp) hpos (by rw [List.append_nil]; exact hbytes)
          simp only [List.mem_cons, List.mem_append, List.not_mem_nil, or_false, not_or]
          refine ⟨by decide, by decide, fun hmem => ?_, by decide⟩
          exact absurd (fields.mem_run hmem) (by decide)
    rw [List.length_append] at hlen
    omega
  rw [hzero, List.drop_zero] at hdrop
  exact hdrop

/-- A terminator ends a clean body at one place only. -/
theorem eq_nil_of_append_ST {body body' rest : Bytes} (hclean : ESC ∉ body)
    (h : body ++ Kgp.ST = body' ++ Kgp.ST ++ rest) : rest = [] := by
  rw [List.append_assoc] at h
  rcases List.append_eq_append_iff.1 h with ⟨a, rfl, hST⟩ | ⟨c, rfl, hST⟩
  · have hlen := congrArg List.length hST
    rw [List.length_append, List.length_append] at hlen
    exact List.length_eq_zero_iff.1 (by omega)
  · cases c with
    | nil => simpa using hST
    | cons x c =>
        -- the body would contain the escape byte of the terminator
        have hx : ESC = x := (List.cons.inj hST).1
        rw [← hx] at hclean
        simp at hclean

/-- **In the beginning of a segment nothing is recognized.** -/
theorem inert_of_beginning {segment : Segment} {tail m : Bytes} (h : segment.bytes = tail ++ m)
    (hm : m ≠ []) : Inert tail := by
  intro j
  constructor
  · intro body rest hdrop
    have htail : tail = Kgp.apcIntro ++ body ++ Kgp.ST ++ rest :=
      eq_of_drop_beginning h hdrop (by simp [Kgp.ST])
    rw [htail] at h
    cases segment with
    | noise bytes clean =>
        have hbytes : bytes = Kgp.apcIntro ++ body ++ Kgp.ST ++ rest ++ m := h
        rw [hbytes] at clean
        simp [Kgp.apcIntro] at clean
    | frame control payload unsplit clean =>
        have hbody : bodyOf control payload ++ Kgp.ST = body ++ Kgp.ST ++ (rest ++ m) := by
          simpa [Segment.bytes, Kgp.apcIntro] using h
        exact hm (List.append_eq_nil_iff.1 (eq_nil_of_append_ST clean hbody)).2
    | barrier fields =>
        rw [Segment.bytes, Da1.replyIntro, Kgp.apcIntro] at h
        simp only [List.cons_append, List.cons.injEq] at h
        exact absurd h.2.1 (by decide)
  · intro run rest hrun hdrop
    have htail : tail = Da1.replyIntro ++ run ++ ascii 'c' :: rest :=
      eq_of_drop_beginning h hdrop (by simp)
    rw [htail] at h
    cases segment with
    | noise bytes clean =>
        have hbytes : bytes = Da1.replyIntro ++ run ++ ascii 'c' :: rest ++ m := h
        rw [hbytes] at clean
        simp [Da1.replyIntro] at clean
    | frame control payload unsplit clean =>
        rw [Segment.bytes, Da1.replyIntro, Kgp.apcIntro] at h
        simp only [List.cons_append, List.cons.injEq] at h
        exact absurd h.2.1 (by decide)
    | barrier fields =>
        -- the letter that ends a run is no byte of a run, so both runs end at the same place
        have hc : ∀ run : Bytes, (∀ b ∈ run, Da1.isParameterByte b = true) → ascii 'c' ∉ run :=
          fun run hrun hmem => absurd (hrun _ hmem) (by decide)
        have heq : fields.run ++ ascii 'c' :: [] = run ++ ascii 'c' :: (rest ++ m) := by
          simpa [Segment.bytes, Da1.replyIntro] using h
        have hleft : Text.splitOnce (ascii 'c') (fields.run ++ ascii 'c' :: []) =
            some (fields.run, []) :=
          Text.splitOnce_eq_some_iff.2 ⟨rfl, hc fields.run fun b hb => fields.mem_run hb⟩
        have hright : Text.splitOnce (ascii 'c') (run ++ ascii 'c' :: (rest ++ m)) =
            some (run, rest ++ m) := Text.splitOnce_eq_some_iff.2 ⟨rfl, hc run hrun⟩
        rw [heq, hright] at hleft
        have hnil : rest ++ m = [] := (Prod.mk.inj (Option.some_inj.1 hleft)).2
        exact hm (List.append_eq_nil_iff.1 hnil).2

theorem inert_nil : Inert [] := by
  intro j
  rw [List.drop_nil]
  exact ⟨fun body rest h => by simp [Kgp.apcIntro] at h,
    fun run rest _ h => by simp [Da1.replyIntro] at h⟩

/-! ### The events of a stream -/

section Events

variable {b64 : Base64.Codec} {correlationId : UInt32} {offset : ℕ} {sequence : UInt32}

/-- The control part of a body is what stands before its first semicolon. -/
theorem splitBody_bodyOf {control : Bytes} {payload : Option Bytes} (h : ascii ';' ∉ control) :
    Kgp.splitBody (bodyOf control payload) =
      (control, payload.map fun payload => String.ofList (Utf8Lossy.decode payload)) := by
  rw [Kgp.splitBody_eq]
  cases payload with
  | none =>
      rw [bodyOf, Text.splitOnce_eq_none_iff.2 h]
      rfl
  | some payload =>
      rw [bodyOf, Text.splitOnce_eq_some_iff.2 ⟨rfl, h⟩]
      rfl

/-- The payload that reports success. -/
def okPayload : Bytes := [ascii 'O', ascii 'K']

/-- **The status is `OK` when the payload is.** -/
theorem status_apcEvent_eq_ok_iff {control : Bytes} {payload : Option Bytes}
    (h : ascii ';' ∉ control) :
    (Kgp.apcEvent b64 sequence (bodyOf control payload)).status = some "OK" ↔
      payload = some okPayload := by
  have hstatus : (Kgp.apcEvent b64 sequence (bodyOf control payload)).status =
      payload.map fun payload => String.ofList (Utf8Lossy.decode payload) := by
    rw [Kgp.apcEvent, splitBody_bodyOf h]
  rw [hstatus, Option.map_eq_some_iff]
  have hok : ∀ payload : Bytes, String.ofList (Utf8Lossy.decode payload) = "OK" ↔
      payload = okPayload := by
    intro payload
    have hdecode : Utf8Lossy.decode payload = ['O', 'K'] ↔
        payload = ['O', 'K'].map Text.asciiByte :=
      Utf8Lossy.decode_eq_iff (by simp)
    rw [show "OK" = String.ofList ['O', 'K'] from rfl, String.ofList_inj]
    exact hdecode
  constructor
  · rintro ⟨payload, rfl, h⟩
    rw [(hok payload).1 h]
  · rintro rfl
    exact ⟨okPayload, rfl, (hok okPayload).2 rfl⟩

/-- What the event of a segment is: where it stands, whether it is a barrier, and whether it is a
reply that names the identifier. -/
theorem event_spec (correlationId : UInt32) {segment : Segment} {event : Kgp.ObservedEvent}
    (h : segment.event b64 offset sequence = some event) :
    event.offset = offset ∧ (event.isBarrier = true ↔ segment.IsBarrier) ∧
      ((event.isReply && event.hasCorrelation correlationId) = true ↔
        segment.Names correlationId) := by
  cases segment with
  | noise bytes clean => cases h
  | frame control payload unsplit clean =>
      obtain rfl := Option.some_inj.1 h
      refine ⟨rfl, iff_of_false (by simp [Kgp.ObservedEvent.isBarrier, Kgp.apcEvent]) not_false, ?_⟩
      rw [Bool.and_eq_true, Kgp.hasCorrelation_apcEvent, splitBody_bodyOf unsplit]
      exact and_iff_right rfl
  | barrier fields =>
      obtain rfl := Option.some_inj.1 h
      exact ⟨rfl, iff_of_true rfl trivial,
        iff_of_false (by simp [Kgp.ObservedEvent.isReply]) not_false⟩

/-- Only noise has no event. -/
theorem not_isBarrier_of_event_none (correlationId : UInt32) {segment : Segment}
    (h : segment.event b64 offset sequence = none) :
    ¬ segment.IsBarrier ∧ ¬ segment.Names correlationId := by
  cases segment with
  | noise bytes clean => exact ⟨not_false, not_false⟩
  | frame control payload unsplit clean => cases h
  | barrier fields => cases h

/-- The events of two streams, one behind the other. -/
theorem eventsOf_append (first second : List Segment) :
    ∃ sequence', eventsOf b64 offset sequence (first ++ second) =
      eventsOf b64 offset sequence first ++
        eventsOf b64 (offset + (render first).length) sequence' second := by
  induction first generalizing offset sequence with
  | nil => exact ⟨sequence, rfl⟩
  | cons segment rest ih =>
      rw [List.cons_append, eventsOf, eventsOf, render_cons, List.length_append, ← Nat.add_assoc]
      cases segment.event b64 offset sequence with
      | none => exact ih
      | some event =>
          obtain ⟨sequence', hrest⟩ :=
            @ih (offset + segment.bytes.length) (saturatingSucc sequence)
          exact ⟨sequence', by simp only [hrest, List.cons_append]⟩

/-- An event stands inside its stream. -/
theorem offset_eventsOf {segments : List Segment} {event : Kgp.ObservedEvent}
    (h : event ∈ eventsOf b64 offset sequence segments) :
    offset ≤ event.offset ∧ event.offset < offset + (render segments).length := by
  induction segments generalizing offset sequence with
  | nil => cases h
  | cons segment rest ih =>
      rw [eventsOf] at h
      rw [render_cons, List.length_append]
      cases hevent : segment.event b64 offset sequence with
      | none =>
          rw [hevent] at h
          have hrest := ih h
          omega
      | some event' =>
          rw [hevent] at h
          rcases List.mem_cons.1 h with rfl | hmem
          · have hoffset := (event_spec 0 hevent).1
            have hpos : 0 < segment.bytes.length := by
              cases segment with
              | noise bytes clean => cases hevent
              | frame control payload unsplit clean => simp [Segment.bytes, Kgp.apcIntro]
              | barrier fields => simp [Segment.bytes, Da1.replyIntro]
            omega
          · have hrest := ih hmem
            omega

/-- A stream has a barrier event when it has a barrier segment. -/
theorem exists_barrier_eventsOf {segments : List Segment} :
    (∃ event ∈ eventsOf b64 offset sequence segments, event.isBarrier = true) ↔
      ∃ segment ∈ segments, segment.IsBarrier := by
  induction segments generalizing offset sequence with
  | nil => simp [eventsOf]
  | cons segment rest ih =>
      rw [eventsOf, List.exists_mem_cons_iff]
      cases hevent : segment.event b64 offset sequence with
      | none =>
          rw [or_iff_right (not_isBarrier_of_event_none 0 hevent).1]
          exact ih
      | some event =>
          rw [List.exists_mem_cons_iff, (event_spec 0 hevent).2.1, ih]

/-- The first reply that names the identifier, and its payload. -/
theorem firstMatching_eventsOf {segments : List Segment} :
    (∃ reply, Kgp.firstMatching (eventsOf b64 offset sequence segments) correlationId = some reply ∧
        reply.event.status = some "OK") ↔
      ∃ before control unsplit clean after,
        segments = before ++ .frame control (some okPayload) unsplit clean :: after ∧
        Kgp.Correlates correlationId control ∧
        ∀ segment ∈ before, ¬ segment.Names correlationId := by
  induction segments generalizing offset sequence with
  | nil => simp [eventsOf, Kgp.firstMatching]
  | cons segment rest ih =>
      -- a segment that does not name the identifier is skipped on both sides
      have hskip : ¬ segment.Names correlationId →
          ((∃ before control unsplit clean after,
              segment :: rest = before ++ .frame control (some okPayload) unsplit clean :: after ∧
              Kgp.Correlates correlationId control ∧
              ∀ segment ∈ before, ¬ segment.Names correlationId) ↔
            ∃ before control unsplit clean after,
              rest = before ++ .frame control (some okPayload) unsplit clean :: after ∧
              Kgp.Correlates correlationId control ∧
              ∀ segment ∈ before, ¬ segment.Names correlationId) := by
        intro hnot
        constructor
        · rintro ⟨before, control, unsplit, clean, after, heq, hnames, hbefore⟩
          cases before with
          | nil =>
              obtain ⟨rfl, -⟩ := List.cons.inj heq
              exact absurd hnames hnot
          | cons segment' before =>
              obtain ⟨rfl, rfl⟩ := List.cons.inj heq
              exact ⟨before, control, unsplit, clean, after, rfl, hnames,
                fun s hs => hbefore s (List.mem_cons_of_mem _ hs)⟩
        · rintro ⟨before, control, unsplit, clean, after, rfl, hnames, hbefore⟩
          exact ⟨segment :: before, control, unsplit, clean, after, rfl, hnames,
            List.forall_mem_cons.2 ⟨hnot, hbefore⟩⟩
      rw [eventsOf]
      cases hevent : segment.event b64 offset sequence with
      | none =>
          rw [hskip (not_isBarrier_of_event_none correlationId hevent).2]
          exact ih
      | some event =>
          have hspec := (event_spec correlationId hevent).2.2
          by_cases hnames : segment.Names correlationId
          · simp only [Kgp.firstMatching_cons, if_pos (hspec.2 hnames)]
            cases segment with
            | noise bytes clean => cases hevent
            | barrier fields => exact absurd hnames not_false
            | frame control payload unsplit clean =>
                obtain rfl := Option.some_inj.1 hevent
                simp only [Option.some_inj, exists_eq_left']
                rw [status_apcEvent_eq_ok_iff unsplit]
                constructor
                · rintro rfl
                  exact ⟨[], control, unsplit, clean, rest, rfl, hnames, by simp⟩
                · rintro ⟨before, control', unsplit', clean', after, heq, -, hbefore⟩
                  cases before with
                  | nil =>
                      obtain ⟨hseg, -⟩ := List.cons.inj heq
                      exact (Segment.frame.inj hseg).2
                  | cons segment' before =>
                      obtain ⟨rfl, -⟩ := List.cons.inj heq
                      exact absurd hnames (hbefore _ List.mem_cons_self)
          · rw [hskip hnames]
            simp only [Kgp.firstMatching_cons, if_neg (mt hspec.1 hnames)]
            exact ih

end Events

/-! ### The verdict on a stream -/

/-- **The stream answers the query before its barrier**: it contains a barrier reply, and the first
protocol reply that names the identifier stands before the first barrier reply and has the payload
`OK`. -/
def Answered (correlationId : UInt32) (segments : List Segment) : Prop :=
  ∃ before control unsplit clean after,
    segments = before ++ .frame control (some okPayload) unsplit clean :: after ∧
    Kgp.Correlates correlationId control ∧
    (∀ segment ∈ before, ¬ segment.Names correlationId ∧ ¬ segment.IsBarrier) ∧
    ∃ segment ∈ after, segment.IsBarrier

section Verdict

variable {b64 : Base64.Codec} {correlationId : UInt32} {before after : List Segment}
  {fields : Da1Fields}

/-- A stream with a barrier reply has a first one. -/
theorem exists_first_barrier {segments : List Segment}
    (h : ∃ segment ∈ segments, segment.IsBarrier) :
    ∃ before fields after, segments = before ++ .barrier fields :: after ∧
      ∀ segment ∈ before, ¬ segment.IsBarrier := by
  induction segments with
  | nil => simp at h
  | cons segment rest ih =>
      have hnext : ¬ segment.IsBarrier → ∃ before fields after,
          segment :: rest = before ++ .barrier fields :: after ∧
            ∀ segment ∈ before, ¬ segment.IsBarrier := by
        intro hnot
        obtain ⟨before, fields, after, rfl, hbefore⟩ :=
          ih (((List.exists_mem_cons_iff ..).1 h).resolve_left hnot)
        exact ⟨segment :: before, fields, after, rfl, List.forall_mem_cons.2 ⟨hnot, hbefore⟩⟩
      cases segment with
      | noise bytes clean => exact hnext not_false
      | frame control payload unsplit clean => exact hnext not_false
      | barrier fields => exact ⟨[], fields, rest, rfl, by simp⟩

/-- The answer stands before the first barrier reply. -/
theorem answered_iff (hbefore : ∀ segment ∈ before, ¬ segment.IsBarrier) :
    Answered correlationId (before ++ .barrier fields :: after) ↔
      ∃ earlier control unsplit clean later,
        before = earlier ++ .frame control (some okPayload) unsplit clean :: later ∧
        Kgp.Correlates correlationId control ∧
        ∀ segment ∈ earlier, ¬ segment.Names correlationId := by
  constructor
  · rintro ⟨earlier, control, unsplit, clean, later, heq, hnames, hearlier, -⟩
    rcases List.append_eq_append_iff.1 heq with ⟨a, rfl, ha⟩ | ⟨c, rfl, hc⟩
    · -- the first barrier reply would stand before the answer
      cases a with
      | nil => cases ha
      | cons segment a =>
          obtain ⟨rfl, -⟩ := List.cons.inj ha
          exact absurd trivial (hearlier (.barrier fields) (by simp)).2
    · cases c with
      | nil => cases hc
      | cons segment c =>
          obtain ⟨rfl, -⟩ := List.cons.inj hc
          exact ⟨earlier, control, unsplit, clean, c, rfl, hnames, fun s hs => (hearlier s hs).1⟩
  · rintro ⟨earlier, control, unsplit, clean, later, rfl, hnames, hearlier⟩
    refine ⟨earlier, control, unsplit, clean, later ++ .barrier fields :: after, by simp, hnames,
      fun s hs => ⟨hearlier s hs, hbefore s (List.mem_append_left _ hs)⟩,
      .barrier fields, by simp, trivial⟩

/-- The verdict on complete segments: only what stands before the first barrier reply counts. -/
theorem conformant_eventsOf_iff (hbefore : ∀ segment ∈ before, ¬ segment.IsBarrier) :
    ((Kgp.assess (eventsOf b64 0 0 (before ++ .barrier fields :: after)) correlationId).availability
          = .available ∧
        (Kgp.assess (eventsOf b64 0 0 (before ++ .barrier fields :: after))
          correlationId).conformance = .conformant) ↔
      Answered correlationId (before ++ .barrier fields :: after) := by
  rw [answered_iff hbefore, ← @firstMatching_eventsOf b64 correlationId 0 0 before,
    Kgp.conformant_iff]
  obtain ⟨sequence', hevents⟩ := @eventsOf_append b64 0 0 before (.barrier fields :: after)
  rw [hevents, Nat.zero_add]
  have hnone : (eventsOf b64 0 0 before).find? Kgp.ObservedEvent.isBarrier = none := by
    rw [List.find?_eq_none]
    intro event hmem hbarrier
    obtain ⟨segment, hsegment, hb⟩ := exists_barrier_eventsOf.1 ⟨event, hmem, hbarrier⟩
    exact hbefore segment hsegment hb
  -- every event of the first part stands before the barrier, every other one does not
  have hfirst : ∀ event ∈ eventsOf b64 0 0 before, event.offset < (render before).length := by
    intro event hmem
    have hoffset := (offset_eventsOf hmem).2
    omega
  have hsecond : ∀ event ∈ eventsOf b64 (render before).length sequence'
      (.barrier fields :: after), (render before).length ≤ event.offset :=
    fun event hmem => (offset_eventsOf hmem).1
  have hbarrier : (eventsOf b64 0 0 before ++ eventsOf b64 (render before).length sequence'
      (.barrier fields :: after)).find? Kgp.ObservedEvent.isBarrier =
      some ⟨(render before).length,
        (fields.response b64 (render before).length).wireEvent sequence' .barrierReply⟩ := by
    rw [List.find?_append, hnone, Option.none_or]
    rfl
  rw [hbarrier, Kgp.firstMatching, List.find?_append]
  constructor
  · rintro ⟨reply, barrier, hreply, hb, hok, hlt⟩
    obtain rfl := Option.some_inj.1 hb
    refine ⟨reply, ?_, hok⟩
    rcases Option.or_eq_some_iff.1 hreply with hmatch | ⟨-, hmatch⟩
    · exact hmatch
    · have hge := hsecond reply (List.mem_of_find?_eq_some hmatch)
      exact absurd hlt (Nat.not_lt.2 hge)
  · rintro ⟨reply, hmatch, hok⟩
    refine ⟨reply, _, ?_, rfl, hok, hfirst reply (List.mem_of_find?_eq_some hmatch)⟩
    rw [Kgp.firstMatching] at hmatch
    rw [hmatch]
    rfl

/-- A prefix that is too short to contain the first barrier reply. -/
theorem length_lt_of_beginning {complete a : List Segment} {tail : Bytes}
    (hpre : before = complete ++ a)
    (htail : tail = [] ∨ ∃ segment more m, a ++ .barrier fields :: after = segment :: more ∧
      segment.bytes = tail ++ m ∧ m ≠ []) :
    (render complete ++ tail).length < (render (before ++ [.barrier fields])).length := by
  have hbarrier : 0 < (Segment.barrier fields).bytes.length := by
    simp [Segment.bytes, Da1.replyIntro]
  rw [hpre]
  simp only [render_append, render_cons, render_nil, List.length_append, List.append_nil]
  rcases htail with rfl | ⟨segment, more, m, heq, hbytes, hm⟩
  · rw [List.length_nil]
    omega
  · have hlt : tail.length < segment.bytes.length := by
      rw [hbytes, List.length_append]
      have := List.length_pos_iff.2 hm
      omega
    cases a with
    | nil =>
        obtain ⟨rfl, -⟩ := List.cons.inj heq
        rw [render_nil, List.length_nil]
        omega
    | cons segment' a =>
        obtain ⟨rfl, -⟩ := List.cons.inj heq
        rw [render_cons, List.length_append]
        omega

/-- What the parser makes of a prefix that contains the first barrier reply. -/
theorem conformant_prefix_iff {p : Bytes} (hbefore : ∀ segment ∈ before, ¬ segment.IsBarrier)
    (hp : p <+: render (before ++ .barrier fields :: after))
    (hlong : (Kgp.parseExchange b64 p correlationId).barrierSeen = true ∨
      (render (before ++ [.barrier fields])).length ≤ p.length) :
    ((Kgp.parseExchange b64 p correlationId).assessment.availability = .available ∧
        (Kgp.parseExchange b64 p correlationId).assessment.conformance = .conformant) ↔
      Answered correlationId (before ++ .barrier fields :: after) := by
  obtain ⟨complete, rest, tail, hsplit, rfl, htail⟩ := exists_complete_of_prefix hp
  have hinert : Inert tail := by
    rcases htail with rfl | ⟨segment, more, m, -, hbytes, hm⟩
    · exact inert_nil
    · exact inert_of_beginning hbytes hm
  have hobserve : Kgp.observe b64 (render complete ++ tail) = eventsOf b64 0 0 complete :=
    observe_render complete hinert
  -- the complete segments of a shorter prefix contain no barrier reply
  have hshort : ∀ a, before = complete ++ a → a ++ .barrier fields :: after = rest → False := by
    intro a hpre hrest
    rw [← hrest] at htail
    have hlt := length_lt_of_beginning hpre htail
    rcases hlong with hseen | hlen
    · rw [Kgp.barrierSeen_iff, hobserve, List.find?_isSome] at hseen
      obtain ⟨segment, hmem, hb⟩ := exists_barrier_eventsOf.1 hseen
      exact hbefore segment (by rw [hpre]; exact List.mem_append_left _ hmem) hb
    · omega
  have hcomplete : ∃ more, complete = before ++ .barrier fields :: more := by
    rcases List.append_eq_append_iff.1 hsplit with ⟨c, hc, hrest⟩ | ⟨a, hpre, hrest⟩
    · cases c with
      | nil =>
          rw [List.append_nil] at hc
          exact absurd (hshort [] (by rw [hc, List.append_nil]) hrest) not_false
      | cons segment more =>
          obtain ⟨rfl, -⟩ := List.cons.inj hrest
          exact ⟨more, hc⟩
    · exact absurd (hshort a hpre hrest.symm) not_false
  obtain ⟨more, rfl⟩ := hcomplete
  have hverdict := @conformant_eventsOf_iff b64 correlationId before more fields hbefore
  rw [answered_iff hbefore] at hverdict ⊢
  rw [Kgp.parseExchange, hobserve]
  exact hverdict

/-- A prefix of a stream without a barrier reply shows no barrier. -/
theorem barrierSeen_of_le_stream {segments : List Segment} {p : Bytes} (hp : p <+: render segments)
    (hseen : (Kgp.parseExchange b64 p correlationId).barrierSeen = true) :
    ∃ segment ∈ segments, segment.IsBarrier := by
  obtain ⟨complete, rest, tail, rfl, rfl, htail⟩ := exists_complete_of_prefix hp
  have hinert : Inert tail := by
    rcases htail with rfl | ⟨segment, more, m, -, hbytes, hm⟩
    · exact inert_nil
    · exact inert_of_beginning hbytes hm
  rw [Kgp.barrierSeen_iff, observe_render complete hinert, List.find?_isSome] at hseen
  obtain ⟨segment, hmem, hb⟩ := exists_barrier_eventsOf.1 hseen
  exact ⟨segment, List.mem_append_left _ hmem, hb⟩

end Verdict

/-- The turns deliver the stream up to its first barrier reply in time, and the limit admits it. -/
def DeliveredInTime (maxResponseBytes deadline : ℕ) (ticks : List Tick) (segments : List Segment) :
    Prop :=
  ∀ before fields after, segments = before ++ .barrier fields :: after →
    (∀ segment ∈ before, ¬ segment.IsBarrier) →
    (render (before ++ [.barrier fields])).length ≤ maxResponseBytes ∧
    ∃ timely rest, ticks = timely ++ rest ∧ (∀ tick ∈ timely, tick.Timely deadline) ∧
      (render (before ++ [.barrier fields])).length ≤ (received timely).length

/-- **The verdict does not depend on how the stream is cut**: when the loop of the KGP probe stops
after turns that delivered a prefix of a stream, its first barrier reply in time if it has one, the
response is assessed available and conformant exactly when the stream answers the query before its
barrier. -/
theorem verdict_of_stream (b64 : Base64.Codec) (correlationId : UInt32) (segments : List Segment)
    (maxResponseBytes deadline : ℕ) (ticks : List Tick) (ops : List TtyOp) (response : Bytes)
    (reason : StopReason)
    (hloop : (exchangeLoop (fun response => kgpStopReason b64 response correlationId)
      maxResponseBytes deadline [] ticks).Returns ops (response, reason))
    (hstream : received ticks <+: render segments)
    (hintime : DeliveredInTime maxResponseBytes deadline ticks segments) :
    ((Kgp.parseExchange b64 response correlationId).assessment.availability = .available ∧
        (Kgp.parseExchange b64 response correlationId).assessment.conformance = .conformant) ↔
      Answered correlationId segments := by
  obtain ⟨taken, left, hticks, hresponse⟩ := (exchangeLoop_returns hloop).arrived
  rw [List.nil_append] at hresponse
  have hprefix : response <+: render segments := by
    rw [hresponse]
    refine List.IsPrefix.trans ?_ hstream
    rw [hticks, received_append]
    exact List.prefix_append _ _
  by_cases hbarrier : ∃ segment ∈ segments, segment.IsBarrier
  · obtain ⟨before, fields, after, rfl, hbefore⟩ := exists_first_barrier hbarrier
    obtain ⟨hmax, timely, rest, rfl, htimely, hlen⟩ := hintime before fields after rfl hbefore
    refine conformant_prefix_iff hbefore hprefix ?_
    -- the loop stopped at the barrier, or at the limit, or with everything that came in time
    rcases timely_of_exchangeLoop hloop htimely with hfired | hlimit | hall
    · exact Or.inl (kgpStopReason_eq_some_iff.1 hfired).1
    · exact Or.inr (hmax.trans hlimit)
    · exact Or.inr (hlen.trans hall.length_le)
  · refine iff_of_false ?_ ?_
    · rintro ⟨-, hconformant⟩
      have hseen : (Kgp.parseExchange b64 response correlationId).barrierSeen = true :=
        Kgp.barrierSeen_iff.2 (Kgp.barrier_of_verdict (Or.inl hconformant))
      exact hbarrier (barrierSeen_of_le_stream hprefix hseen)
    · rintro ⟨before, control, unsplit, clean, after, rfl, -, -, segment, hmem, hb⟩
      exact hbarrier ⟨segment, by simp [hmem], hb⟩

/-- The fields `62;4`. -/
def sampleFields : Da1Fields :=
  { fields := [['6', '2'], ['4']]
    decimal := by simp
    bounded := by simp; decide
    some_field := ⟨['4'], by simp, by simp⟩ }

/-- An answer and a barrier reply. -/
def sampleStream : List Segment :=
  [.frame (Text.asBytes "i=31") (some okPayload) (by decide) (by decide),
    .barrier sampleFields]

/-- The stream in two chunks, cut inside the terminator of the answer. -/
def sampleTicks : List Tick :=
  [arrives 0 (Text.asBytes "\x1b_Gi=31;OK\x1b"), ⟨1, .failed .EINTR⟩,
    arrives 2 (Text.asBytes "\\\x1b[?62;4c")]

theorem verdict_of_stream_sample :
    ∃ ops response reason,
      (exchangeLoop (fun response => kgpStopReason Base64.standard response 31) 64 750 []
        sampleTicks).Returns ops (response, reason) ∧ Answered 31 sampleStream := by
  obtain ⟨ops, ⟨response, reason⟩, hloop, htest⟩ := Traced.exists_returns
    (exchangeLoop (fun response => kgpStopReason Base64.standard response 31) 64 750 [] sampleTicks)
    (fun result =>
      (Kgp.parseExchange Base64.standard result.1 31).assessment.availability = .available ∧
      (Kgp.parseExchange Base64.standard result.1 31).assessment.conformance = .conformant)
    (by rfl)
  have hintime : DeliveredInTime 64 750 sampleTicks sampleStream := by
    intro before fields after heq hbefore
    have hbounds : (render sampleStream).length ≤ 64 ∧
        (render sampleStream).length ≤ (received sampleTicks).length := by decide
    have hpre : (render (before ++ [.barrier fields])).length ≤ (render sampleStream).length := by
      rw [heq]
      simp
    refine ⟨hpre.trans hbounds.1, sampleTicks, [], by simp, ?_, hpre.trans hbounds.2⟩
    intro tick htick
    simp only [sampleTicks, List.mem_cons, List.not_mem_nil, or_false] at htick
    rcases htick with rfl | rfl | rfl
    · exact ⟨by decide, Or.inr ⟨_, rfl, by decide⟩⟩
    · exact ⟨by decide, Or.inl rfl⟩
    · exact ⟨by decide, Or.inr ⟨_, rfl, by decide⟩⟩
  have hstream : received sampleTicks <+: render sampleStream := by rfl
  exact ⟨ops, response, reason, hloop, (verdict_of_stream Base64.standard 31 sampleStream 64 750
    sampleTicks ops response reason hloop hstream hintime).1 (of_decide_eq_true htest)⟩

end TermInterop
