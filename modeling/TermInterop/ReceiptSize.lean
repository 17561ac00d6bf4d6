/-
How long an emitted receipt is.

Every byte of a response may be written several times: in the Base64 of the response, in the Base64
of its event, as a field or the status of the event, and in the detail of an assertion, where text
is escaped.  And every event brings the names of its fields.  So the length of a receipt is linear
in the length of the response and in the number of events, and short replies are the worst.

A Sixel probe stops with the first reply, so that all its replies but one come with the last read.
A KGP probe goes on until it sees a barrier.

Main definitions:

* `TermInterop.stringsLength` — the bytes of the endpoint and of the retained variables.

Main results:

* `TermInterop.Kgp.length_apcEvent_le`, `TermInterop.Da1.length_wireEvent_le` — how long an event
  is;
* `TermInterop.Kgp.sum_observe_le`, `TermInterop.sum_enumerateEvents_le` — how long the events of a
  response are;
* `TermInterop.Kgp.length_assess_le` — how long an assessment is;
* `TermInterop.Da1.length_parseResponses_le` — how many replies a Sixel probe sees.
-/

import TermInterop.ReceiptJson

set_option relaxedAutoImplicit false
set_option autoImplicit false

namespace TermInterop

/-! ### Events -/

/-- What is kept of some items takes no more than the items. -/
theorem sum_filterMap_le {α β : Type} {f : α → Option β} (weight : β → ℕ) (bound : α → ℕ)
    {xs : List α} (h : ∀ x ∈ xs, ∀ y, f x = some y → weight y ≤ bound x) :
    ((xs.filterMap f).map weight).sum ≤ (xs.map bound).sum := by
  induction xs with
  | nil => exact le_refl _
  | cons x xs ih =>
      have hrest := ih fun y hy => h y (List.mem_cons_of_mem _ hy)
      rw [List.map_cons, List.sum_cons]
      cases hx : f x with
      | none =>
          rw [List.filterMap_cons_none hx]
          exact hrest.trans (Nat.le_add_left _ _)
      | some y =>
          have hfirst := h x List.mem_cons_self y hx
          rw [List.filterMap_cons_some hx, List.map_cons, List.sum_cons]
          omega

namespace Kgp

/-- The fields of a control part. -/
theorem length_parseControlFields_le (control : Bytes) :
    (fieldsToVec (parseControlFields control)).length ≤ 6 * control.length + 2 := by
  have hfield : ∀ field pair, parseField field = some pair →
      Json.escapedLength pair.1 + Json.escapedLength pair.2 + 6 ≤ 6 * field.length := by
    rintro field ⟨key, value⟩ h
    obtain ⟨rfl, -⟩ := parseField_eq_some_iff.1 h
    have hkey := Json.escapedLength_le_chars key
    have hvalue := Json.escapedLength_le_chars value
    rw [List.length_append, List.length_cons]
    dsimp only
    omega
  have hcollected := length_fieldsToVec_le
    (((Utf8Lossy.decode control).splitOn ',').filterMap parseField)
  have hpieces := sum_filterMap_le
    (fun pair : String × String => Json.escapedLength pair.1 + Json.escapedLength pair.2 + 6)
    (fun field => 6 * field.length)
    fun field (_ : field ∈ (Utf8Lossy.decode control).splitOn ',') pair => hfield field pair
  rw [List.sum_map_mul_left] at hpieces
  have hsplit := Text.sum_length_splitOn ',' (Utf8Lossy.decode control)
  have hdecode := Utf8Lossy.length_decode_le control
  have hsome : 0 < ((Utf8Lossy.decode control).splitOn ',').length :=
    List.length_pos_iff.2 (List.splitOn_ne_nil _ _)
  rw [parseControlFields]
  omega

/-- **A protocol reply takes six bytes for every byte of its body**, besides its Base64. -/
theorem length_apcEvent_le (sequence : UInt32) (body : Bytes) :
    (apcEvent Base64.standard sequence body).toVec.length ≤
      224 + 6 * body.length + 4 * ((body.length + 7) / 3) := by
  have hsequence := length_number_u32_le sequence
  have hrole : (Json.string WireEventRole.capabilityReply.snakeCase).length = 18 := by decide
  have hprotocol : protocolId.toVec.length = 94 := by rfl
  have hcorrelation : ∀ correlation : Option UInt32,
      (Json.optionalString (correlation.map fun value => Nat.repr value.toNat)).length ≤ 12 := by
    intro correlation
    cases correlation with
    | none => decide
    | some value =>
        have hvalue := escapedLength_repr_le (k := 10) (by decide)
          (Nat.lt_of_lt_of_le value.toNat_lt (by decide))
        rw [Option.map_some, Json.optionalString, Json.length_string]
        omega
  have hraw : (Json.string (Base64.standard.encode (apcIntro ++ body ++ ST))).length =
      4 * ((body.length + 7) / 3) + 2 := by
    rw [Json.length_string, escapedLength_encode]
    simp only [List.length_append, apcIntro, ST, List.length_cons, List.length_nil]
    omega
  have hbody : (Json.optionalString (splitBody body).2).length +
      (fieldsToVec (parseControlFields (splitBody body).1)).length ≤ 6 * body.length + 6 := by
    rw [splitBody_eq]
    cases hsplit : Text.splitOnce (ascii ';') body with
    | none =>
        have hfields := length_parseControlFields_le body
        have hnull : (Json.optionalString none).length = 4 := rfl
        simp only [hnull]
        omega
    | some parts =>
        obtain ⟨control, payload⟩ := parts
        obtain ⟨rfl, -⟩ := Text.splitOnce_eq_some_iff.1 hsplit
        have hfields := length_parseControlFields_le control
        have hstatus := escapedLength_decode_le payload
        simp only [Json.optionalString, Json.length_string, List.length_append, List.length_cons]
        omega
  have hlength := (apcEvent Base64.standard sequence body).length_toVec
  have hnumber := hcorrelation ((parseControlFields (splitBody body).1)["i"]?.bind fun value =>
    parseU32 value.toList)
  simp only [apcEvent, optionalVec] at hlength ⊢
  omega

end Kgp

namespace Da1

/-- Every parameter but the last comes with a separator. -/
theorem length_parseParameters {body : List Char} {parameters : List UInt16}
    (h : parseParameters body = some parameters) : 2 * parameters.length ≤ body.length + 1 := by
  have hmap : ∀ (pieces : List (List Char)) (values : List UInt16),
      pieces.mapM parseU16 = some values → values.length = pieces.length := by
    intro pieces
    induction pieces with
    | nil =>
        intro values hvalues
        obtain rfl : [] = values := by simpa using hvalues
        rfl
    | cons piece pieces ih =>
        intro values hvalues
        rw [List.mapM_cons] at hvalues
        simp only [Option.bind_eq_bind, Option.bind_eq_some_iff, Option.pure_def,
          Option.some_inj] at hvalues
        obtain ⟨value, -, values', hvalues', rfl⟩ := hvalues
        rw [List.length_cons, List.length_cons, ih values' hvalues']
  have hpieces : ∀ pieces : List (List Char),
      (pieces.filter fun value => value ≠ []).length ≤ (pieces.map List.length).sum := by
    intro pieces
    induction pieces with
    | nil => exact le_refl _
    | cons piece pieces ih =>
        rw [List.map_cons, List.sum_cons]
        by_cases hnil : piece = []
        · rw [List.filter_cons_of_neg (by simpa using hnil)]
          exact ih.trans (Nat.le_add_left _ _)
        · have hpiece := List.length_pos_iff.2 hnil
          rw [List.filter_cons_of_pos (by simpa using hnil), List.length_cons]
          omega
  have hlength := hmap _ _ h
  have hfilled := hpieces (body.splitOn ';')
  have hcount := List.length_filter_le (fun value : List Char => decide (value ≠ []))
    (body.splitOn ';')
  have hsplit := Text.sum_length_splitOn ';' body
  omega

/-- The extensions take six bytes each. -/
theorem escapedLength_extensions_le (values : List UInt16) :
    Json.escapedLength (",".intercalate (values.map fun value => Nat.repr value.toNat)) ≤
      6 * values.length := by
  have hsum : ∀ values : List UInt16,
      ((values.map fun value => (Nat.repr value.toNat).toList).map List.length).sum ≤
        5 * values.length := by
    intro values
    induction values with
    | nil => exact le_refl _
    | cons value values ih =>
        have hvalue : (Nat.repr value.toNat).toList.length ≤ 5 := by
          rw [Nat.toList_repr]
          exact (Nat.length_toDigits_le_iff (by decide) (by decide)).2
            (Nat.lt_of_lt_of_le value.toNat_lt (by decide))
        simp only [List.map_cons, List.sum_cons, List.length_cons] at ih ⊢
        omega
  have hchars : (",".intercalate (values.map fun value => Nat.repr value.toNat)).toList =
      [','].intercalate (values.map fun value => (Nat.repr value.toNat).toList) := by
    rw [String.toList_intercalate, List.map_map]
    rfl
  have hcomma : Json.IsPlainChar ',' := by decide
  rw [Json.escapedLength_of_plainChars, hchars]
  · cases values with
    | nil => exact le_refl _
    | cons value values =>
        have hjoined := Text.length_intercalate_add_one ','
          (by simp : ((value :: values).map fun value => (Nat.repr value.toNat).toList) ≠ [])
        have hdigits := hsum (value :: values)
        rw [List.length_map] at hjoined
        omega
  · intro c hc
    rw [hchars] at hc
    rcases Text.mem_of_mem_intercalate hc with rfl | ⟨digits, hdigits, hmem⟩
    · exact hcomma
    · obtain ⟨value, -, rfl⟩ := List.mem_map.1 hdigits
      exact Json.isPlainChar_of_isDigit (Text.isDigit_of_mem_repr hmem)

/-- The parameters of a reply are copied. -/
theorem escapedLength_parameters {run : Bytes} (hrun : ∀ b ∈ run, isParameterByte b) :
    Json.escapedLength (String.ofList ('?' :: Utf8Lossy.decode run)) ≤ run.length + 1 := by
  have hascii : ∀ b ∈ run, b.toNat < 0x80 := fun b hb => lt_of_isParameterByte (hrun b hb)
  have hplain : ∀ b : UInt8, isParameterByte b → Json.IsPlain b := by decide +kernel
  have hquestion : Json.IsPlainChar '?' := by decide
  have hlength := Utf8Lossy.length_decode_le run
  rw [Json.escapedLength_of_plainChars, String.toList_ofList, List.length_cons]
  · omega
  · rw [String.toList_ofList, Utf8Lossy.decode_of_ascii hascii]
    refine List.forall_mem_cons.2 ⟨hquestion, ?_⟩
    rw [List.forall_mem_map]
    intro b hb
    have hb' : (Char.ofNat b.toNat).toNat = b.toNat := by
      have hlt := hascii b hb
      rw [Char.toNat_ofNat, if_pos (Or.inl (by omega))]
    refine ⟨by rw [hb']; exact hascii b hb, ?_⟩
    rw [Text.asciiByte, hb', UInt8.ofNat_toNat]
    exact hplain b (hrun b hb)

/-- A reply has four bytes at least. -/
theorem add_four_le {b64 : Base64.Codec} {input : Bytes} {offset : ℕ} {response : Da1Response}
    (h : parseResponseAt b64 input offset = some response) : offset + 4 ≤ response.endOffset := by
  obtain ⟨run, rest, parameters, -, -, -, -, rfl⟩ := parseResponseAt_eq_some_iff.1 h
  dsimp only
  omega

/-- **A barrier reply takes four bytes for every byte**, besides its Base64. -/
theorem length_wireEvent_le {input : Bytes} {offset : ℕ} {response : Da1Response}
    (h : parseResponseAt Base64.standard input offset = some response) (sequence : UInt32)
    (role : WireEventRole) :
    (response.wireEvent sequence role).toVec.length ≤ 256 + 4 * (response.endOffset - offset) +
      4 * ((response.endOffset - offset + 2) / 3) := by
  obtain ⟨run, rest, parameters, -, hrun, hparameters, hne, rfl⟩ := parseResponseAt_eq_some_iff.1 h
  obtain ⟨level, extensions, rfl⟩ := List.exists_cons_of_ne_nil hne
  have hsequence := length_number_u32_le sequence
  have hrole : (Json.string role.snakeCase).length ≤ 18 := by cases role <;> decide
  have hprotocol : protocolId.toVec.length = 94 := by rfl
  have hcount := length_parseParameters hparameters
  have hdecode := Utf8Lossy.length_decode_le run
  have htext := escapedLength_parameters hrun
  have hlevel : Json.escapedLength (Nat.repr level.toNat) ≤ 5 :=
    escapedLength_repr_le (by decide) (Nat.lt_of_lt_of_le level.toNat_lt (by decide))
  have hextensions := escapedLength_extensions_le extensions
  have hnames : Json.escapedLength "parameters" = 10 ∧ Json.escapedLength "device_level" = 12 ∧
      Json.escapedLength "extensions" = 10 := by decide
  have hfields : (fieldsToVec (Kgp.collectFields
      [("parameters", String.ofList ('?' :: Utf8Lossy.decode run)),
        ("device_level", Nat.repr level.toNat),
        ("extensions",
          ",".intercalate (extensions.map fun value => Nat.repr value.toNat))])).length ≤
      58 + 4 * run.length := by
    refine (length_fieldsToVec_le _).trans ?_
    simp only [List.map_cons, List.map_nil, List.sum_cons, List.sum_nil]
    simp only [List.length_cons] at hcount
    omega
  have hraw : (Json.string (Base64.standard.encode (replyIntro ++ run ++ [ascii 'c']))).length =
      4 * ((run.length + 4 + 2) / 3) + 2 := by
    rw [Json.length_string, escapedLength_encode]
    simp only [List.length_append, replyIntro, List.length_cons, List.length_nil]
    omega
  have hnull : (Json.optionalString none).length = 4 := rfl
  have hend : offset + 3 + run.length + 1 - offset = run.length + 4 := by omega
  rw [WireEvent.length_toVec, hend]
  change 82 + (Json.number sequence.toNat).length + (Json.string role.snakeCase).length +
    protocolId.toVec.length + (Json.optionalString none).length +
    (Json.optionalString none).length + (fieldsToVec (Kgp.collectFields
      [("parameters", String.ofList ('?' :: Utf8Lossy.decode run)),
        ("device_level", Nat.repr level.toNat),
        ("extensions", ",".intercalate
          (extensions.map fun value => Nat.repr value.toNat))])).length +
    (Json.string (Base64.standard.encode (replyIntro ++ run ++ [ascii 'c']))).length ≤ _
  omega

end Da1

/-! ### The events of a response -/

namespace Kgp

variable {input : Bytes}

/-- What an observed event is: a protocol reply with a body, or a barrier reply. -/
theorem observe_cases {observed : ObservedEvent} (h : observed ∈ observe Base64.standard input) :
    (∃ sequence body, observed.event = apcEvent Base64.standard sequence body ∧
      body.length ≤ input.length) ∨
    ∃ sequence offset response, Da1.parseResponseAt Base64.standard input offset = some response ∧
      observed.event = response.wireEvent sequence .barrierReply := by
  obtain ⟨index, hobs⟩ := List.mem_iff_getElem?.1 h
  obtain ⟨offset, next, hfind⟩ := ScanLoop.getElem?_scanFrom 0 0 index observed hobs
  obtain hapc | ⟨-, response, hda1, heq⟩ := find_eq_some_iff.1 hfind
  · obtain ⟨body, rest, hdrop, -, heq⟩ := parseApcEvent_eq_some_iff.1 hapc
    obtain ⟨rfl, -⟩ := Prod.mk.inj heq
    have hlength := congrArg List.length hdrop
    simp only [List.length_drop, List.length_append] at hlength
    exact Or.inl ⟨_, body, rfl, by omega⟩
  · obtain ⟨rfl, -⟩ := Prod.mk.inj heq
    exact Or.inr ⟨_, offset, response, hda1, rfl⟩

/-- **The events of a response**: so many bytes for each, and so many for every byte of the
response. -/
theorem sum_observe_le (input : Bytes) :
    3 * ((observe Base64.standard input).map fun observed => observed.event.toVec.length + 1).sum ≤
      755 * (observe Base64.standard input).length + 22 * input.length := by
  have hsum := @ScanLoop.sum_scanFrom_le _ _ (recognizer Base64.standard input) saturatingSucc
    input.length (fun observed => 3 * (observed.event.toVec.length + 1)) 755 22 ?_ 0 0
  · rw [List.sum_map_mul_left] at hsum
    exact hsum
  · intro sequence offset observed next hfind
    obtain ⟨-, -, -, hinside⟩ := find_bounds hfind
    refine ⟨hinside, ?_⟩
    obtain hapc | ⟨-, response, hda1, heq⟩ := find_eq_some_iff.1 hfind
    · obtain ⟨body, rest, -, -, heq⟩ := parseApcEvent_eq_some_iff.1 hapc
      obtain ⟨rfl, rfl⟩ := Prod.mk.inj heq
      have hevent := length_apcEvent_le sequence body
      dsimp only
      omega
    · obtain ⟨rfl, rfl⟩ := Prod.mk.inj heq
      have hevent := Da1.length_wireEvent_le hda1 sequence .barrierReply
      have hfour : offset + 4 ≤ response.endOffset := Da1.add_four_le hda1
      dsimp only
      omega

/-- The status of an event is a part of the response. -/
theorem escapedLength_status_le {observed : ObservedEvent} {status : String}
    (h : observed ∈ observe Base64.standard input) (hstatus : observed.event.status = some status) :
    Json.escapedLength status ≤ 6 * input.length := by
  obtain ⟨sequence, body, heq, hbody⟩ | ⟨sequence, offset, response, -, heq⟩ := observe_cases h
  · rw [heq, apcEvent, splitBody_eq] at hstatus
    cases hsplit : Text.splitOnce (ascii ';') body with
    | none =>
        rw [hsplit] at hstatus
        cases hstatus
    | some parts =>
        obtain ⟨control, payload⟩ := parts
        rw [hsplit] at hstatus
        obtain rfl := Option.some.inj hstatus
        obtain ⟨rfl, -⟩ := Text.splitOnce_eq_some_iff.1 hsplit
        have hpayload := escapedLength_decode_le payload
        rw [List.length_append, List.length_cons] at hbody
        omega
  · rw [heq] at hstatus
    cases hstatus

/-- The correlation of an event is a number. -/
theorem escapedLength_correlation_le {observed : ObservedEvent} {correlation : String}
    (h : observed ∈ observe Base64.standard input)
    (hcorrelation : observed.event.correlation = some correlation) :
    Json.escapedLength correlation ≤ 10 := by
  obtain ⟨sequence, body, heq, hbody⟩ | ⟨sequence, offset, response, -, heq⟩ := observe_cases h
  · rw [heq, apcEvent] at hcorrelation
    obtain ⟨value, -, rfl⟩ := Option.map_eq_some_iff.1 hcorrelation
    exact escapedLength_repr_le (by decide) (Nat.lt_of_lt_of_le value.toNat_lt (by decide))
  · rw [heq] at hcorrelation
    cases hcorrelation

/-- The assessment of a reply with the expected identifier. -/
theorem length_assessMatchingReply_le {reply : ObservedEvent} {barrier : Option ObservedEvent}
    {correlationId : UInt32} {bound : ℕ}
    (hid : Json.escapedLength (Nat.repr correlationId.toNat) ≤ 10)
    (hstatus : ∀ status, reply.event.status = some status → Json.escapedLength status ≤ bound) :
    (assessMatchingReply reply barrier correlationId).toVec.length ≤ 530 + bound := by
  have hids : Json.escapedLength "kgp.query.correlated-reply" = 26 ∧
      Json.escapedLength "kgp.query.reply-before-da1-barrier" = 34 ∧
      Json.escapedLength "kgp.query.direct-rgb-load" = 25 ∧
      Json.escapedLength "kgp.query.da1-barrier" = 21 := by decide
  have hreceived : Json.escapedLength "received reply for image id " = 28 := by rfl
  have hbarrier : Json.escapedLength "DA1 barrier was not observed" = 28 ∧
      Json.escapedLength "KGP reply preceded the DA1 barrier" = 34 ∧
      Json.escapedLength "KGP reply arrived after the DA1 barrier" = 39 ∧
      Json.escapedLength "DA1 barrier reply was observed" = 30 ∧
      Json.escapedLength "DA1 barrier reply was not observed" = 34 := by decide
  have hload : Json.escapedLength "KGP reply did not contain a status" = 34 ∧
      Json.escapedLength "KGP status was " = 15 := by decide
  have horder : ∀ ordered : Bool, Json.escapedLength (if barrier.isNone then
      "DA1 barrier was not observed" else if ordered then "KGP reply preceded the DA1 barrier"
      else "KGP reply arrived after the DA1 barrier") ≤ 39 := by
    intro ordered
    split_ifs <;> omega
  have hlast : Json.escapedLength (if barrier.isSome then "DA1 barrier reply was observed"
      else "DA1 barrier reply was not observed") ≤ 34 := by
    split_ifs <;> omega
  have hordered := horder (barrier.all fun barrier => reply.offset < barrier.offset)
  refine (Assessment.length_toVec_le _).trans ?_
  simp only [assessMatchingReply, assertion, List.map_cons, List.map_nil, List.sum_cons,
    List.sum_nil, Json.escapedLength_append]
  cases hstate : reply.event.status with
  | none =>
      dsimp only
      omega
  | some status =>
      have hbound := hstatus status hstate
      simp only [Json.escapedLength_append]
      omega

/-- The assessment of a reply with another identifier. -/
theorem length_assessUnmatchedReply_le {unmatched : ObservedEvent} {barrier : Option ObservedEvent}
    {correlationId : UInt32} (hid : Json.escapedLength (Nat.repr correlationId.toNat) ≤ 10)
    (hcorrelation : ∀ correlation, unmatched.event.correlation = some correlation →
      Json.escapedLength correlation ≤ 10) :
    (assessUnmatchedReply unmatched barrier correlationId).toVec.length ≤ 530 := by
  have hids : Json.escapedLength "kgp.query.correlated-reply" = 26 ∧
      Json.escapedLength "kgp.query.da1-barrier" = 21 := by decide
  have htexts : Json.escapedLength "received KGP reply for " = 23 ∧
      Json.escapedLength ", expected " = 11 ∧ Json.escapedLength "None" = 4 ∧
      Json.escapedLength "Some(\"" = 7 ∧ Json.escapedLength "\")" = 3 ∧
      Json.escapedLength "barrier state retained independently of the malformed correlation" =
        65 := by decide
  have hdebug : Json.escapedLength (debugCorrelation unmatched.event.correlation) ≤ 20 := by
    cases hstate : unmatched.event.correlation with
    | none =>
        rw [debugCorrelation]
        omega
    | some correlation =>
        have hten := hcorrelation correlation hstate
        rw [debugCorrelation, Json.escapedLength_append, Json.escapedLength_append]
        omega
  refine (Assessment.length_toVec_le _).trans ?_
  simp only [assessUnmatchedReply, assertion, List.map_cons, List.map_nil, List.sum_cons,
    List.sum_nil, Json.escapedLength_append]
  omega

/-- **The assessment of a response** repeats no more of it than one status. -/
theorem length_assess_le (correlationId : UInt32) :
    (assess (observe Base64.standard input) correlationId).toVec.length ≤
      530 + 6 * input.length := by
  have hid : Json.escapedLength (Nat.repr correlationId.toNat) ≤ 10 :=
    escapedLength_repr_le (by decide) (Nat.lt_of_lt_of_le correlationId.toNat_lt (by decide))
  rw [assess]
  cases hmatching : ((observe Base64.standard input).filter ObservedEvent.isReply).find?
      (ObservedEvent.hasCorrelation correlationId) with
  | some reply =>
      have hreply : reply ∈ observe Base64.standard input :=
        List.mem_of_mem_filter (List.mem_of_find?_eq_some hmatching)
      exact length_assessMatchingReply_le hid fun status hstatus =>
        escapedLength_status_le hreply hstatus
  | none =>
      dsimp only
      cases hfirst : ((observe Base64.standard input).filter ObservedEvent.isReply).head? with
      | some unmatched =>
          have hunmatched : unmatched ∈ observe Base64.standard input :=
            List.mem_of_mem_filter (List.mem_of_head? hfirst)
          have hcorrelation : ∀ correlation, unmatched.event.correlation = some correlation →
              Json.escapedLength correlation ≤ 10 := fun correlation h =>
            escapedLength_correlation_le hunmatched h
          exact (length_assessUnmatchedReply_le hid hcorrelation).trans (Nat.le_add_right _ _)
      | none =>
          have hunavailable : assessUnavailable.toVec.length ≤ 530 := by decide +kernel
          have hunknown : assessUnknown.toVec.length ≤ 530 := by decide +kernel
          dsimp only
          split_ifs
          · exact hunavailable.trans (Nat.le_add_right _ _)
          · exact hunknown.trans (Nat.le_add_right _ _)

end Kgp

/-- What is numbered takes no more than its items. -/
theorem sum_mapIdx_le {α β : Type} {f : ℕ → α → β} {weight : β → ℕ} {bound : α → ℕ} {xs : List α}
    (h : ∀ i, ∀ x ∈ xs, weight (f i x) ≤ bound x) :
    ((xs.mapIdx f).map weight).sum ≤ (xs.map bound).sum := by
  induction xs generalizing f with
  | nil => exact le_refl _
  | cons x xs ih =>
      have hrest := ih (f := fun i => f (i + 1)) fun i y hy =>
        h (i + 1) y (List.mem_cons_of_mem _ hy)
      have hfirst := h 0 x List.mem_cons_self
      rw [List.mapIdx_cons, List.map_cons, List.sum_cons, List.map_cons, List.sum_cons]
      omega

/-- A parsed reply stands where it was parsed. -/
theorem Da1.offset_of_parseResponseAt {b64 : Base64.Codec} {input : Bytes} {offset : ℕ}
    {response : Da1Response} (h : parseResponseAt b64 input offset = some response) :
    response.offset = offset := by
  obtain ⟨run, rest, parameters, -, -, -, -, rfl⟩ := parseResponseAt_eq_some_iff.1 h
  rfl

/-- **The events of the replies of a response**: so many bytes for each, and so many for every byte
of the response. -/
theorem sum_enumerateEvents_le (role : WireEventRole) (input : Bytes) :
    3 * ((enumerateEvents role (Da1.parseResponses Base64.standard input)).map fun event =>
        event.toVec.length + 1).sum ≤
      779 * (Da1.parseResponses Base64.standard input).length + 16 * input.length := by
  have hparsed : ∀ response ∈ Da1.parseResponses Base64.standard input,
      Da1.parseResponseAt Base64.standard input response.offset = some response := by
    intro response hmem
    obtain ⟨index, hobs⟩ := List.mem_iff_getElem?.1 hmem
    obtain ⟨offset, next, hfind⟩ := ScanLoop.getElem?_scanFrom () 0 index response hobs
    obtain ⟨parsed, hparsed, heq⟩ := Option.map_eq_some_iff.1 hfind
    obtain ⟨rfl, -⟩ := Prod.mk.inj heq
    rw [Da1.offset_of_parseResponseAt hparsed]
    exact hparsed
  have hsum := @ScanLoop.sum_scanFrom_le _ _ (Da1.recognizer Base64.standard input) id input.length
    (fun response => 3 * (257 + 4 * (response.endOffset - response.offset) +
      4 * ((response.endOffset - response.offset + 2) / 3))) 779 16 ?_ () 0
  · have hevents :
      ((enumerateEvents role (Da1.parseResponses Base64.standard input)).map fun event =>
        event.toVec.length + 1).sum ≤
          ((Da1.parseResponses Base64.standard input).map fun response =>
            257 + 4 * (response.endOffset - response.offset) +
              4 * ((response.endOffset - response.offset + 2) / 3)).sum := by
      rw [enumerateEvents]
      refine sum_mapIdx_le fun i response hmem => ?_
      have hevent := Da1.length_wireEvent_le (hparsed response hmem) (u32FromIndex i) role
      omega
    rw [List.sum_map_mul_left] at hsum
    exact (Nat.mul_le_mul_left 3 hevents).trans hsum
  · intro _ offset response next hfind
    obtain ⟨parsed, hparsed, heq⟩ := Option.map_eq_some_iff.1 hfind
    obtain ⟨rfl, rfl⟩ := Prod.mk.inj heq
    have hbounds := Da1.parseResponseAt_bounds hparsed
    rw [Da1.offset_of_parseResponseAt hparsed]
    exact ⟨hbounds.2, by omega⟩

/-! ### The replies that a Sixel probe sees -/

namespace Da1

variable {b64 : Base64.Codec}

/-- A reply that ends before an offset is a reply of what is there. -/
theorem parseResponseAt_of_append {p q : Bytes} {offset : ℕ} {response : Da1Response}
    (h : parseResponseAt b64 (p ++ q) offset = some response)
    (hinside : response.endOffset ≤ p.length) : parseResponseAt b64 p offset = some response := by
  obtain ⟨run, rest, parameters, hdrop, hrun, hparameters, hne, rfl⟩ :=
    parseResponseAt_eq_some_iff.1 h
  dsimp only at hinside
  have hdrop' : p.drop offset ++ q = (replyIntro ++ run ++ [ascii 'c']) ++ rest := by
    rw [← List.drop_append_of_le_length (by omega), hdrop]
    simp
  have hshort : (replyIntro ++ run ++ [ascii 'c']).length ≤ (p.drop offset).length := by
    rw [List.length_drop]
    simp only [List.length_append, replyIntro, List.length_cons, List.length_nil]
    omega
  obtain ⟨rest', hrest'⟩ : (replyIntro ++ run ++ [ascii 'c']) <+: p.drop offset :=
    List.prefix_of_prefix_length_le ⟨rest, hdrop'.symm⟩ (List.prefix_append _ _) hshort
  refine parseResponseAt_eq_some_iff.2 ⟨run, rest', parameters, ?_, hrun, hparameters, hne, rfl⟩
  rw [← hrest']
  simp

/-- **All replies but one lie in what was read last**, when there was none before. -/
theorem length_parseResponses_le {p q : Bytes} (h : parseResponses b64 p = []) :
    4 * (parseResponses b64 (p ++ q)).length ≤ q.length + 4 := by
  have hbounds : ∀ (s : Unit) offset response next,
      (recognizer b64 (p ++ q)).find s offset = some (response, next) →
        next ≤ (p ++ q).length ∧ offset + 4 ≤ next := by
    intro s offset response next hfind
    obtain ⟨parsed, hparsed, heq⟩ := Option.map_eq_some_iff.1 hfind
    obtain ⟨rfl, rfl⟩ := Prod.mk.inj heq
    exact ⟨(parseResponseAt_bounds hparsed).2, add_four_le hparsed⟩
  cases hreplies : parseResponses b64 (p ++ q) with
  | nil => exact Nat.zero_le _
  | cons response replies =>
      obtain ⟨offset, next, hfind, rfl⟩ := ScanLoop.scanFrom_eq_cons hreplies
      have hlater : p.length < next := by
        by_contra hearly
        obtain ⟨parsed, hparsed, heq⟩ := Option.map_eq_some_iff.1 hfind
        obtain ⟨rfl, rfl⟩ := Prod.mk.inj heq
        have hinside := parseResponseAt_of_append hparsed (Nat.not_lt.1 hearly)
        have hlt : offset < p.length := Nat.lt_of_lt_of_le (parseResponseAt_bounds hinside).1
          (parseResponseAt_bounds hinside).2
        have hnone := ScanLoop.find_eq_none_of_scanFrom h (Nat.zero_le offset) hlt
        rw [recognizer, Option.map_eq_none_iff, hinside] at hnone
        cases hnone
      have hrest := @ScanLoop.length_scanFrom_le _ _ _ id _ 4 hbounds () next
      rw [List.length_append] at hrest
      simp only [id] at hrest ⊢
      rw [List.length_cons, List.length_append]
      omega

end Da1

/-! ### The context of a probe -/

/-- The bytes of the endpoint and of the variables whose values are retained. -/
def stringsLength (varOs : String → Option Bytes) (tty : Bytes) : ℕ :=
  tty.length + (VALUE_HINTS.map fun name => ((varOs name).getD []).length).sum

/-- The hints of an environment. -/
theorem sum_environmentHints_le (varOs : String → Option Bytes) :
    ((environmentHints varOs).map fun hint => hint.toVec.length + 1).sum ≤
      440 + 6 * (VALUE_HINTS.map fun name => ((varOs name).getD []).length).sum := by
  have hnames : ∀ name ∈ VALUE_HINTS, (Json.string name).length ≤ 14 := by decide
  have hframes : Json.frame ["name", "observation"] = 24 ∧ Json.frame ["value"] = 10 := by
    decide
  have hpresence : ∀ name ∈ PRESENCE_HINTS,
      (⟨name, .present⟩ : EnvironmentHint).toVec.length + 1 ≤ 55 := by decide
  have hvalue : ∀ name ∈ VALUE_HINTS, ∀ hint : EnvironmentHint, ((varOs name).map fun value =>
      (⟨name, .value (String.ofList (Utf8Lossy.decode value))⟩ : EnvironmentHint)) = some hint →
      hint.toVec.length + 1 ≤ 55 + 6 * ((varOs name).getD []).length := by
    intro name hname hint hhint
    obtain ⟨value, hvar, rfl⟩ := Option.map_eq_some_iff.1 hhint
    have hname' := hnames name hname
    have htext := escapedLength_decode_le value
    rw [hvar, Option.getD_some, EnvironmentHint.toVec, Json.length_object]
    simp only [HintObservation.toVec, List.map_cons, List.map_nil, List.sum_cons, List.sum_nil,
      Json.length_object, hframes.1, hframes.2]
    rw [Json.length_string (String.ofList _)]
    omega
  have hpresent : ∀ name ∈ PRESENCE_HINTS, ∀ hint : EnvironmentHint,
      (if (varOs name).isSome then some ⟨name, .present⟩ else none) = some hint →
        hint.toVec.length + 1 ≤ 55 := by
    intro name hname hint hhint
    split_ifs at hhint
    obtain rfl := Option.some.inj hhint
    exact hpresence name hname
  have hvalues := sum_filterMap_le (fun hint : EnvironmentHint => hint.toVec.length + 1)
    (fun name => 55 + 6 * ((varOs name).getD []).length) hvalue
  have hpresences := sum_filterMap_le (fun hint : EnvironmentHint => hint.toVec.length + 1)
    (fun _ => 55) hpresent
  have hsorted :=
    ((List.perm_insertionSort (fun left right : EnvironmentHint => left.name ≤ right.name)
      ((VALUE_HINTS.filterMap fun name => (varOs name).map fun value =>
      ⟨name, .value (String.ofList (Utf8Lossy.decode value))⟩) ++
      PRESENCE_HINTS.filterMap fun name =>
        if (varOs name).isSome then some ⟨name, .present⟩ else none)).map
    fun hint => hint.toVec.length + 1).sum_eq
  have hthree : (VALUE_HINTS.map fun name => 55 + 6 * ((varOs name).getD []).length).sum =
      165 + 6 * (VALUE_HINTS.map fun name => ((varOs name).getD []).length).sum := by
    simp only [VALUE_HINTS, List.map_cons, List.map_nil, List.sum_cons, List.sum_nil]
    omega
  have hfive : (PRESENCE_HINTS.map fun _ => 55).sum = 275 := rfl
  have hboth := Nat.add_le_add hvalues hpresences
  rw [hthree, hfive, ← List.sum_append, ← List.map_append] at hboth
  exact (le_of_eq hsorted).trans (hboth.trans (by omega))

end TermInterop
