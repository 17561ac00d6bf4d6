/-
The second implementation of the decision rule: `examples/consume-negotiation.py`.

The consumer walks the same document as the validator, but as it was parsed: it compares values with
Python's `==`, in which dictionaries are equal when their members are, a float equals an integer of
the same value and a missing member is `None`.  What Python's `float` makes of a number with a
fraction or an exponent is a parameter.

Main definitions:

* `TermInterop.ConsumeNegotiation.equal` — Python's `==`;
* `TermInterop.ConsumeNegotiation.validateNegotiation` — the consumer;
* `TermInterop.ConsumeNegotiation.Names` — a document that names a negotiation, when its numbers are
  read by value and what its selection does not need is ignored;
* `TermInterop.ConsumeNegotiation.Tidy`, `TermInterop.ConsumeNegotiation.Plain` — a selection
  without further members, and preferences that are spelled with digits alone.

Main results:

* `TermInterop.ConsumeNegotiation.validateNegotiation_iff` — what the consumer accepts;
* `TermInterop.ConsumeNegotiation.deserialize_iff` — what the validator accepts;
* `TermInterop.ConsumeNegotiation.implementations_agree_iff` — **where the two agree**;
* `TermInterop.ConsumeNegotiation.implementations_disagree_on_member` — a document on which they do
  not.
-/

import TermInterop.NegotiationJson

set_option relaxedAutoImplicit false
set_option autoImplicit false

namespace TermInterop

namespace ConsumeNegotiation

open Json (Document Members)

/-! ### Values in Python -/

section Equality

variable (float : ℚ → WithBot (WithTop ℚ))

/-- The number in Python: digits are an integer, and everything else a float. -/
def number : Json.Numeral → WithBot (WithTop ℚ)
  | .natural n => ((n : ℚ) : WithTop ℚ)
  | .negated n => ((-n : ℚ) : WithTop ℚ)
  | .decimal value => float value

mutual

/-- Python's `==`.  A truth value is a number. -/
def equal : Document → Document → Bool
  | .null, .null => true
  | .boolean a, .boolean b => a = b
  | .boolean a, .number n => number float (.natural a.toNat) = number float n
  | .number m, .boolean b => number float m = number float (.natural b.toNat)
  | .number m, .number n => number float m = number float n
  | .string s, .string t => s = t
  | .array xs, .array ys => equalItems xs ys
  | .object xs, .object ys => xs.length = ys.length && equalMembers xs ys
  | _, _ => false

/-- Lists are equal item by item. -/
def equalItems : List Document → List Document → Bool
  | [], [] => true
  | x :: xs, y :: ys => equal x y && equalItems xs ys
  | _, _ => false

/-- Whether the other dictionary has equal values for these members. -/
def equalMembers : Members → Members → Bool
  | [], _ => true
  | (name, x) :: xs, ys =>
      (match ys.lookup name with
        | some y => equal x y
        | none => false) && equalMembers xs ys

end

attribute [local simp] equal

end Equality

/-! ### The consumer -/

/-- What the consumer raises: a violation of the contract, or a `TypeError`. -/
inductive PythonError
  | contractError (message : String)
  | typeError

def objectField (value : Document) (field : String) : Except PythonError Document :=
  match value with
  | .object _ => .ok value
  | _ => .error (.contractError s!"{field} must be an object")

/-- `type(value) is int`. -/
def isInt : Document → Bool
  | .number (.natural _) => true
  | .number (.negated _) => true
  | _ => false

section Consumer

variable (float : ℚ → WithBot (WithTop ℚ))

/-- `value in {..}`, for a set of texts: lists and dictionaries are unhashable. -/
def inSet (value : Document) (texts : List String) : Except PythonError Bool :=
  match value with
  | .array _ => .error .typeError
  | .object _ => .error .typeError
  | _ => .ok (texts.any fun s => equal float value (.string s))

def receiptIsEligible (receipt : Document) : Except PythonError Bool := do
  let receipt ← objectField receipt "receipt"
  if !equal float (receipt.get "schema") (.string PROBE_RECEIPT_SCHEMA_V1) then
    .error (.contractError "candidate receipt has an unsupported schema")
  else
    let assessment ← objectField (receipt.get "assessment") "receipt.assessment"
    let context ← objectField (receipt.get "context") "receipt.context"
    let transport ← objectField (context.get "transport") "receipt.context.transport"
    if equal float (assessment.get "availability") (.string "available") &&
        equal float (assessment.get "conformance") (.string "conformant") then
      inSet float (transport.get "readiness") ["ready", "not_required"]
    else .ok false

/-- The loop over the candidates, from some position on. -/
def validateCandidates : ℕ → Option Document → List Document →
    Except PythonError (Option Document)
  | _, firstEligible, [] => .ok firstEligible
  | preference, firstEligible, rawCandidate :: rest => do
      let candidate ← objectField rawCandidate s!"candidates[{preference}]"
      if !isInt (candidate.get "preference") ||
          !equal float (candidate.get "preference") (.number (.natural preference)) then
        .error (.contractError "candidate preferences must equal their array positions")
      else
        let eligible ← receiptIsEligible float (candidate.get "receipt")
        let expected := if eligible then "eligible" else "ineligible"
        if !equal float (candidate.get "disposition") (.string expected) then
          .error (.contractError "candidate disposition contradicts its receipt")
        else
          validateCandidates (preference + 1)
            (if eligible && firstEligible.isNone then some candidate else firstEligible) rest

/-- The checks of a selection. -/
def validateSelection (selection : Document) : Option Document → Except PythonError Document
  | none =>
      if !equal float selection (.object [("state", .string "no_eligible_candidate")]) then
        .error (.contractError "selection exists without an eligible candidate")
      else .ok selection
  | some firstEligible =>
      if !equal float (selection.get "state") (.string "selected") then
        .error (.contractError "the first eligible candidate was not selected")
      else do
        let receipt ← objectField (firstEligible.get "receipt") "selected receipt"
        if !equal float (selection.get "preference") (firstEligible.get "preference") then
          .error (.contractError "selection does not name the first eligible preference")
        else if !equal float (selection.get "capability") (receipt.get "capability") then
          .error (.contractError "selected capability identity contradicts its receipt")
        else if !equal float (selection.get "adapter") (receipt.get "adapter") then
          .error (.contractError "selected adapter identity contradicts its receipt")
        else .ok selection

/-- **The consumer**: it returns the selection. -/
def validateNegotiation (document : Document) : Except PythonError Document := do
  let document ← objectField document "document"
  if !equal float (document.get "schema") (.string CAPABILITY_NEGOTIATION_SCHEMA_V1) then
    .error (.contractError "unsupported negotiation schema")
  else
    match document.get "candidates" with
    | .array candidates => do
        let firstEligible ← validateCandidates float 0 none candidates
        let selection ← objectField (document.get "selection") "selection"
        validateSelection float selection firstEligible
    | _ => .error (.contractError "candidates must be an array")

end Consumer

/-! ### Equal dictionaries -/

section Equal

variable {float : ℚ → WithBot (WithTop ℚ)} {xs ys : Members} {x y : Document}

@[simp] theorem equal_string {s t : String} :
    equal float (.string s) (.string t) = true ↔ s = t := by
  simp [equal]

/-- Only a text is equal to a text. -/
theorem equal_string_right (float : ℚ → WithBot (WithTop ℚ)) {t : String} :
    equal float x (.string t) = true ↔ x = .string t := by
  cases x with
  | string s => simp
  | _ => simp [equal]

@[simp] theorem equal_number {m n : Json.Numeral} :
    equal float (.number m) (.number n) = true ↔ number float m = number float n := by
  simp [equal]

theorem equalMembers_iff :
    equalMembers float xs ys = true ↔
      ∀ m ∈ xs, ∃ y, ys.lookup m.1 = some y ∧ equal float m.2 y = true := by
  induction xs with
  | nil => simp [equalMembers]
  | cons m xs ih =>
      obtain ⟨name, x⟩ := m
      rw [equalMembers, Bool.and_eq_true, ih, List.forall_mem_cons]
      cases hy : ys.lookup name with
      | none => simp
      | some y => simp

/-- **Dictionaries with the same names** are equal when their values are. -/
theorem equal_object_iff {names : List String} (hxs : (xs.map Prod.fst).Perm names)
    (hys : (ys.map Prod.fst).Perm names) (hnodup : names.Nodup) :
    equal float (.object xs) (.object ys) = true ↔
      ∀ name ∈ names, equal float ((Document.object xs).get name) ((Document.object ys).get name) =
        true := by
  have hlength : xs.length = ys.length := by
    have := (hxs.trans hys.symm).length_eq
    simpa using this
  have hxnodup : (xs.map Prod.fst).Nodup := hxs.nodup_iff.2 hnodup
  rw [equal, Bool.and_eq_true, decide_eq_true_eq, equalMembers_iff]
  constructor
  · rintro ⟨-, h⟩ name hname
    obtain ⟨m, hm, rfl⟩ := List.mem_map.1 (hxs.mem_iff.2 hname)
    obtain ⟨y, hy, hequal⟩ := h m hm
    rwa [Json.get_of_lookup (Json.lookup_of_mem hxnodup hm), Json.get_of_lookup hy]
  · refine fun h => ⟨hlength, fun m hm => ?_⟩
    have hname := hxs.mem_iff.1 (List.mem_map.2 ⟨m, hm, rfl⟩)
    obtain ⟨y, hy⟩ := Option.isSome_iff_exists.1
      (Json.lookup_isSome_iff.2 (hys.mem_iff.2 hname))
    have hequal := h m.1 hname
    rw [Json.get_of_lookup (Json.lookup_of_mem hxnodup hm), Json.get_of_lookup hy] at hequal
    exact ⟨y, hy, hequal⟩

/-- Equal dictionaries with one member. -/
theorem equal_singleton_iff {name text : String} :
    equal float (.object xs) (.object [(name, .string text)]) = true ↔
      xs.length = 1 ∧ (Document.object xs).get name = .string text := by
  rw [equal, Bool.and_eq_true, decide_eq_true_eq, List.length_singleton]
  refine and_congr_right fun hlength => ?_
  obtain ⟨⟨n, x⟩, rfl⟩ := List.length_eq_one_iff.1 hlength
  rw [equalMembers_iff, List.forall_mem_singleton]
  by_cases hn : n = name
  · subst hn
    have hget : (Document.object [(n, x)]).get n = x := Json.get_of_lookup (by simp)
    have hself : List.lookup n [(n, Document.string text)] = some (.string text) := by simp
    rw [hget, hself, ← equal_string_right float]
    simp
  · have hget : (Document.object [(n, x)]).get name = .null := by
      simp [Document.get, List.lookup_cons, beq_eq_false_iff_ne.2 (Ne.symm hn)]
    have hnone : List.lookup n [(name, Document.string text)] = none := by
      simp [List.lookup_cons, beq_eq_false_iff_ne.2 hn]
    rw [hget, hnone]
    simp

theorem equal_protocol_iff {p q : ProtocolId} (hx : ProtocolId.deserialize x = some p)
    (hy : ProtocolId.deserialize y = some q) : equal float x y = true ↔ p = q := by
  obtain ⟨xs, hxs, hxs₁, hxs₂, hxs₃⟩ := ProtocolId.deserialize_eq_some_iff.1 hx
  obtain ⟨ys, hys, hys₁, hys₂, hys₃⟩ := ProtocolId.deserialize_eq_some_iff.1 hy
  have hnodup : ["namespace", "name", "revision"].Nodup := by decide
  have hxperm := Json.perm_names hnodup hxs (by
    simp only [List.forall_mem_cons]
    exact ⟨⟨_, hxs₁⟩, ⟨_, hxs₂⟩, ⟨_, hxs₃⟩, nofun⟩)
  have hyperm := Json.perm_names hnodup hys (by
    simp only [List.forall_mem_cons]
    exact ⟨⟨_, hys₁⟩, ⟨_, hys₂⟩, ⟨_, hys₃⟩, nofun⟩)
  obtain ⟨rfl, -⟩ := Json.struct_eq_some_iff.1 hxs
  obtain ⟨rfl, -⟩ := Json.struct_eq_some_iff.1 hys
  obtain ⟨p₁, p₂, p₃⟩ := p
  obtain ⟨q₁, q₂, q₃⟩ := q
  rw [equal_object_iff hxperm hyperm hnodup]
  simp [Json.get_of_lookup hxs₁, Json.get_of_lookup hxs₂, Json.get_of_lookup hxs₃,
    Json.get_of_lookup hys₁, Json.get_of_lookup hys₂, Json.get_of_lookup hys₃]

theorem equal_capability_iff (float : ℚ → WithBot (WithTop ℚ)) {c d : CapabilityId}
    (hx : CapabilityId.deserialize x = some c) (hy : CapabilityId.deserialize y = some d) :
    equal float x y = true ↔ c = d := by
  obtain ⟨xs, p, hxs, hxs₁, hp, hxs₂⟩ := CapabilityId.deserialize_eq_some_iff.1 hx
  obtain ⟨ys, q, hys, hys₁, hq, hys₂⟩ := CapabilityId.deserialize_eq_some_iff.1 hy
  have hnodup : ["protocol", "name"].Nodup := by decide
  have hxperm := Json.perm_names hnodup hxs (by
    simp only [List.forall_mem_cons]
    exact ⟨⟨_, hxs₁⟩, ⟨_, hxs₂⟩, nofun⟩)
  have hyperm := Json.perm_names hnodup hys (by
    simp only [List.forall_mem_cons]
    exact ⟨⟨_, hys₁⟩, ⟨_, hys₂⟩, nofun⟩)
  obtain ⟨rfl, -⟩ := Json.struct_eq_some_iff.1 hxs
  obtain ⟨rfl, -⟩ := Json.struct_eq_some_iff.1 hys
  obtain ⟨c₁, c₂⟩ := c
  obtain ⟨d₁, d₂⟩ := d
  rw [equal_object_iff hxperm hyperm hnodup]
  simp [Json.get_of_lookup hxs₁, Json.get_of_lookup hxs₂, Json.get_of_lookup hys₁,
    Json.get_of_lookup hys₂, equal_protocol_iff hp hq]

theorem equal_adapter_iff (float : ℚ → WithBot (WithTop ℚ)) {a b : AdapterIdentity}
    (hx : AdapterIdentity.deserialize x = some a) (hy : AdapterIdentity.deserialize y = some b) :
    equal float x y = true ↔ a = b := by
  obtain ⟨xs, hxs, hxs₁, hxs₂⟩ := AdapterIdentity.deserialize_eq_some_iff.1 hx
  obtain ⟨ys, hys, hys₁, hys₂⟩ := AdapterIdentity.deserialize_eq_some_iff.1 hy
  have hnodup : ["name", "version"].Nodup := by decide
  have hxperm := Json.perm_names hnodup hxs (by
    simp only [List.forall_mem_cons]
    exact ⟨⟨_, hxs₁⟩, ⟨_, hxs₂⟩, nofun⟩)
  have hyperm := Json.perm_names hnodup hys (by
    simp only [List.forall_mem_cons]
    exact ⟨⟨_, hys₁⟩, ⟨_, hys₂⟩, nofun⟩)
  obtain ⟨rfl, -⟩ := Json.struct_eq_some_iff.1 hxs
  obtain ⟨rfl, -⟩ := Json.struct_eq_some_iff.1 hys
  obtain ⟨a₁, a₂⟩ := a
  obtain ⟨b₁, b₂⟩ := b
  rw [equal_object_iff hxperm hyperm hnodup]
  simp [Json.get_of_lookup hxs₁, Json.get_of_lookup hxs₂, Json.get_of_lookup hys₁,
    Json.get_of_lookup hys₂]

end Equal

/-! ### A document that is read by value -/

/-- A natural number that is spelled as an integer. -/
def Spells : Json.Numeral → ℕ → Prop
  | .natural n, m => n = m
  | .negated n, m => n = 0 ∧ m = 0
  | .decimal _, _ => False

/-- A candidate with this position and disposition. -/
structure NamesCandidate (item : Document) (candidate : NegotiationCandidateV1) : Prop where
  preference : ∃ p, item.get "preference" = .number p ∧ Spells p candidate.preference.toNat
  disposition : item.get "disposition" = .string candidate.disposition.snakeCase

/-- A selection of this candidate, or of none.  Its position may be any number of that value. -/
def NamesSelection (float : ℚ → WithBot (WithTop ℚ)) (selection : Document) :
    NegotiationSelectionV1 → Prop
  | .noEligibleCandidate => selection.get "state" = .string "no_eligible_candidate"
  | .selected preference capability adapter =>
      selection.get "state" = .string "selected" ∧
        (∃ q, selection.get "preference" = .number q ∧
          number float q = number float (.natural preference.toNat)) ∧
        CapabilityId.deserialize (selection.get "capability") = some capability ∧
        AdapterIdentity.deserialize (selection.get "adapter") = some adapter

/-- **A document that names a negotiation**, up to the spelling of its numbers and to what its
selection does not need. -/
structure Names (float : ℚ → WithBot (WithTop ℚ)) (d : Document) (n : CapabilityNegotiationV1) :
    Prop where
  candidates : List.Forall₂ NamesCandidate (d.get "candidates").items n.candidates
  selection : NamesSelection float (d.get "selection") n.selection

/-- A selection without a candidate has no further members. -/
def Tidy (d : Document) : Prop :=
  (d.get "selection").get "state" = .string "no_eligible_candidate" → (d.get "selection").size = 1

/-- A preference that is spelled with digits alone. -/
def PlainPreference (d : Document) : Prop := ∃ n, d.get "preference" = .number (.natural n)

/-- All preferences are spelled with digits alone. -/
def Plain (d : Document) : Prop :=
  (∀ item ∈ (d.get "candidates").items, PlainPreference item) ∧
    ((d.get "selection").get "state" = .string "selected" → PlainPreference (d.get "selection"))

/-- The receipts that a document embeds. -/
def embeddedReceipts (d : Document) : Option (List ProbeReceiptV1) :=
  Json.list embeddedReceipt (d.get "candidates")

section Candidates

variable {float : ℚ → WithBot (WithTop ℚ)} {b64 : Base64.Codec} {item : Document}
  {items : List Document} {receipt : ProbeReceiptV1} {receipts : List ProbeReceiptV1}

/-- A position that both programs know. -/
theorem number_natural_eq_iff {n m : ℕ} :
    number float (.natural n) = number float (.natural m) ↔ n = m := by
  rw [number, number, WithBot.coe_inj, WithTop.coe_inj, Nat.cast_inj]

theorem isInt_and_equal_iff (float : ℚ → WithBot (WithTop ℚ)) {d : Document} {m : ℕ} :
    isInt d = true ∧ equal float d (.number (.natural m)) = true ↔
      ∃ p, d = .number p ∧ Spells p m := by
  cases d with
  | number p =>
      cases p with
      | natural n =>
          rw [equal_number, number_natural_eq_iff]
          simp [isInt, Spells]
      | negated n =>
          have hvalue : number float (.negated n) = number float (.natural m) ↔ n = 0 ∧ m = 0 := by
            rw [number, number, WithBot.coe_inj, WithTop.coe_inj]
            constructor
            · intro h
              have hn : (0 : ℚ) ≤ n := Nat.cast_nonneg n
              have hm : (0 : ℚ) ≤ m := Nat.cast_nonneg m
              exact ⟨by exact_mod_cast (by linarith : (n : ℚ) = 0),
                by exact_mod_cast (by linarith : (m : ℚ) = 0)⟩
            · rintro ⟨rfl, rfl⟩
              simp
          rw [equal_number, hvalue]
          simp [isInt, Spells]
      | decimal value => simp [isInt, Spells]
  | _ => simp [isInt]

/-- **The two notions of eligibility agree** on a receipt that was read and validated. -/
theorem receiptIsEligible_eq (float : ℚ → WithBot (WithTop ℚ)) {d : Document}
    (hreads : ReadsReceipt d receipt) (hvalid : receipt.validate b64 = .ok ()) :
    receiptIsEligible float d = .ok (TermInterop.receiptIsEligible receipt) := by
  have hschema : receipt.schema = PROBE_RECEIPT_SCHEMA_V1 := by
    by_contra hne
    rw [ProbeReceiptV1.validate, if_pos hne] at hvalid
    cases hvalid
  obtain ⟨members, rfl⟩ := hreads.object
  obtain ⟨assessment, hassessment⟩ := hreads.assessment
  obtain ⟨context, hcontext⟩ := hreads.context
  obtain ⟨transport, htransport⟩ := hreads.transport
  have havailability := hreads.availability
  have hconformance := hreads.conformance
  have hreadiness := hreads.readiness
  rw [hcontext] at htransport hreadiness
  rw [hassessment] at havailability hconformance
  rw [htransport] at hreadiness
  rw [receiptIsEligible, objectField]
  simp only [Except.bind, bind, hreads.schema, hschema, hassessment, hcontext, htransport,
    objectField, havailability, hconformance, hreadiness, inSet, TermInterop.receiptIsEligible]
  cases receipt.assessment.availability <;> cases receipt.assessment.conformance <;>
    cases receipt.context.transport.readiness <;> simp [Availability.snakeCase,
      Conformance.snakeCase, TransportReadiness.snakeCase, equal]

/-- The documents of the first eligible receipt. -/
def firstItem : List Document → List ProbeReceiptV1 → Option Document
  | item :: items, receipt :: receipts =>
      if TermInterop.receiptIsEligible receipt then some item else firstItem items receipts
  | _, _ => none

theorem toNat_preferenceFromIndex {index : ℕ} (h : index < 2 ^ 64) :
    (preferenceFromIndex index).toNat = index := UInt64.toNat_ofNat_of_lt' h

/-- **What one candidate has to be** for the loop of the consumer to go on. -/
theorem validateCandidates_cons {index : ℕ} {first found : Option Document}
    (hindex : index < 2 ^ 64) (hobject : ∃ members, item = .object members)
    (hreceipt : embeddedReceipt item = some receipt) (hvalid : receipt.validate b64 = .ok ()) :
    validateCandidates float index first (item :: items) = .ok found ↔
      NamesCandidate item ⟨preferenceFromIndex index, expectedDisposition receipt, receipt⟩ ∧
        validateCandidates float (index + 1)
          (if TermInterop.receiptIsEligible receipt && first.isNone then some item else first)
          items = .ok found := by
  obtain ⟨members, rfl⟩ := hobject
  have hpreference := isInt_and_equal_iff float
    (d := (Document.object members).get "preference") (m := index)
  have heligible := receiptIsEligible_eq float
    (ProbeReceiptV1.reads_of_deserialize hreceipt) hvalid
  have hexpected : (if TermInterop.receiptIsEligible receipt = true then "eligible"
      else "ineligible") = (expectedDisposition receipt).snakeCase := by
    rw [expectedDisposition]
    split_ifs <;> rfl
  rw [validateCandidates, objectField]
  simp only [bind, Except.bind, heligible, hexpected]
  by_cases hposition : ∃ p, (Document.object members).get "preference" = .number p ∧ Spells p index
  · obtain ⟨hint, hequal⟩ := hpreference.2 hposition
    rw [hint, hequal]
    by_cases hdisposition : (Document.object members).get "disposition" =
        .string (expectedDisposition receipt).snakeCase
    · have htrue := (equal_string_right float).2 hdisposition
      rw [htrue]
      refine (and_iff_right ⟨?_, hdisposition⟩).symm
      rwa [toNat_preferenceFromIndex hindex]
    · have hfalse := Bool.eq_false_iff.2 fun htrue =>
        hdisposition ((equal_string_right float).1 htrue)
      rw [hfalse]
      exact iff_of_false (by simp) fun h => hdisposition h.1.disposition
  · have hfalse : (!isInt ((Document.object members).get "preference") ||
        !equal float ((Document.object members).get "preference") (.number (.natural index))) =
          true := by
      rw [← Bool.not_and, Bool.not_eq_true', Bool.eq_false_iff, ne_eq, Bool.and_eq_true]
      exact fun h => hposition (hpreference.1 h)
    rw [if_pos hfalse]
    refine iff_of_false (by simp) fun h => hposition ?_
    obtain ⟨p, hp, hspells⟩ := h.1.preference
    rw [toNat_preferenceFromIndex hindex] at hspells
    exact ⟨p, hp, hspells⟩

/-- **The loop of the consumer** accepts the candidates that a negotiation of the receipts has, and
returns the first eligible one. -/
theorem validateCandidates_iff (float : ℚ → WithBot (WithTop ℚ)) (index : ℕ)
    (first found : Option Document)
    (hindex : index + items.length ≤ 2 ^ 64)
    (hobjects : ∀ item ∈ items, ∃ members, item = .object members)
    (hreceipts : List.Forall₂ (fun item receipt => embeddedReceipt item = some receipt) items
      receipts)
    (hvalid : ∀ receipt ∈ receipts, receipt.validate b64 = .ok ()) :
    validateCandidates float index first items = .ok found ↔
      List.Forall₂ NamesCandidate items (candidatesFrom index receipts) ∧
        found = first.or (firstItem items receipts) := by
  induction hreceipts generalizing index first with
  | nil => cases first <;> simp [validateCandidates, candidatesFrom, firstItem, eq_comm]
  | @cons item receipt items receipts hreceipt hreceipts ih =>
      rw [List.length_cons] at hindex
      obtain ⟨hobject, hobjects⟩ := List.forall_mem_cons.1 hobjects
      obtain ⟨hvalid, hvalids⟩ := List.forall_mem_cons.1 hvalid
      rw [validateCandidates_cons (by omega) hobject hreceipt hvalid,
        ih _ _ (by omega) hobjects hvalids, candidatesFrom, List.forall₂_cons, firstItem, and_assoc]
      refine and_congr_right fun _ => and_congr_right fun _ => ?_
      cases first <;> by_cases he : TermInterop.receiptIsEligible receipt = true <;> simp [he]

/-- The first eligible candidate, in the document and in the negotiation. -/
theorem firstItem_or {index : ℕ}
    (hreceipts : List.Forall₂ (fun item receipt => embeddedReceipt item = some receipt) items
      receipts)
    (hnames : List.Forall₂ NamesCandidate items (candidatesFrom index receipts)) :
    (firstItem items receipts = none ∧ firstEligible (candidatesFrom index receipts) = none) ∨
      ∃ item candidate, firstItem items receipts = some item ∧
        firstEligible (candidatesFrom index receipts) = some candidate ∧
        NamesCandidate item candidate ∧ embeddedReceipt item = some candidate.receipt := by
  induction hreceipts generalizing index with
  | nil => exact Or.inl ⟨rfl, rfl⟩
  | @cons item receipt items receipts hreceipt hreceipts ih =>
      obtain ⟨hname, hnames⟩ := List.forall₂_cons.1 hnames
      rw [firstItem, firstEligible_candidatesFrom_cons]
      split_ifs
      · exact Or.inr ⟨item, _, rfl, rfl, hname, hreceipt⟩
      · exact ih hnames

/-- **What the validator reads as candidates**: the same, spelled with digits alone. -/
theorem deserialize_candidates_iff {index : ℕ}
    (hconforms : ∀ item ∈ items, NegotiationCandidateV1.jsonSchema.accepts item = true)
    (hreceipts : List.Forall₂ (fun item receipt => embeddedReceipt item = some receipt) items
      receipts) :
    List.Forall₂ (fun item candidate => NegotiationCandidateV1.deserialize item = some candidate)
        items (candidatesFrom index receipts) ↔
      List.Forall₂ NamesCandidate items (candidatesFrom index receipts) ∧
        ∀ item ∈ items, PlainPreference item := by
  induction hreceipts generalizing index with
  | nil => simp [candidatesFrom]
  | @cons item receipt items receipts hreceipt hreceipts ih =>
      obtain ⟨hconform, hconforms⟩ := List.forall_mem_cons.1 hconforms
      rw [candidatesFrom, List.forall₂_cons, List.forall₂_cons, List.forall_mem_cons, ih hconforms,
        NegotiationCandidateV1.deserialize_eq_some_iff hconform hreceipt]
      constructor
      · rintro ⟨⟨hpreference, hdisposition, -⟩, hnames, hplain⟩
        exact ⟨⟨⟨⟨_, hpreference, rfl⟩, hdisposition⟩, hnames⟩, ⟨_, hpreference⟩, hplain⟩
      · rintro ⟨⟨⟨⟨p, hp, hspells⟩, hdisposition⟩, hnames⟩, ⟨n, hn⟩, hplain⟩
        obtain rfl : p = .natural n := Document.number.inj (hp.symm.trans hn)
        have hvalue : n = (preferenceFromIndex index).toNat := hspells
        rw [hvalue] at hn
        exact ⟨⟨hn, hdisposition, rfl⟩, hnames, hplain⟩

/-- What was read has the receipts that are embedded. -/
theorem receipts_of_deserialize {candidates : List NegotiationCandidateV1}
    (hconforms : ∀ item ∈ items, NegotiationCandidateV1.jsonSchema.accepts item = true)
    (hreceipts : List.Forall₂ (fun item receipt => embeddedReceipt item = some receipt) items
      receipts)
    (h : List.Forall₂
      (fun item candidate => NegotiationCandidateV1.deserialize item = some candidate)
      items candidates) : candidates.map (·.receipt) = receipts := by
  induction hreceipts generalizing candidates with
  | nil =>
      cases h
      rfl
  | @cons item receipt items receipts hreceipt hreceipts ih =>
      obtain ⟨hconform, hconforms⟩ := List.forall_mem_cons.1 hconforms
      cases h with
      | cons hcandidate hcandidates =>
          rw [List.map_cons, ih hconforms hcandidates]
          congr 1
          exact ((NegotiationCandidateV1.deserialize_eq_some_iff hconform hreceipt).1
            hcandidate).2.2

end Candidates

/-! ### The selection -/

section Selection

variable {float : ℚ → WithBot (WithTop ℚ)} {selection : Document}

/-- A selection that conforms is an object. -/
theorem exists_object_of_selection
    (h : NegotiationSelectionV1.jsonSchema.accepts selection = true) :
    ∃ members, selection = .object members := by
  rcases Json.accepts_of_oneOf h with h | h
  · exact Json.exists_object_of_accepts h
  · exact Json.exists_object_of_accepts h

/-- What a selection that conforms says of a candidate that it selects. -/
theorem exists_selected (h : NegotiationSelectionV1.jsonSchema.accepts selection = true)
    (hstate : selection.get "state" = .string "selected") :
    ∃ q capability adapter, selection.get "preference" = .number q ∧
      CapabilityId.deserialize (selection.get "capability") = some capability ∧
      AdapterIdentity.deserialize (selection.get "adapter") = some adapter := by
  obtain ⟨members, rfl⟩ := exists_object_of_selection h
  rcases Json.accepts_of_oneOf h with h | h
  · obtain ⟨a, ha, hadapter⟩ := Json.exists_member_of_accepts "adapter" h (by simp)
      List.mem_cons_self
    obtain ⟨c, hc, hcapability⟩ := Json.exists_member_of_accepts "capability" h (by simp)
      (List.mem_cons_of_mem _ List.mem_cons_self)
    obtain ⟨p, hp, hpreference⟩ := Json.exists_member_of_accepts "preference" h (by simp)
      (List.mem_cons_of_mem _ (List.mem_cons_of_mem _ List.mem_cons_self))
    obtain ⟨adapter, hadapter⟩ := AdapterIdentity.exists_deserialize hadapter
    obtain ⟨capability, hcapability⟩ := CapabilityId.exists_deserialize hcapability
    obtain ⟨q, rfl⟩ := Json.exists_of_accepts_natural hpreference
    rw [Json.get_of_lookup ha, Json.get_of_lookup hc, Json.get_of_lookup hp]
    exact ⟨q, capability, adapter, rfl, hcapability, hadapter⟩
  · obtain ⟨d, hd, hconst⟩ := Json.exists_member_of_accepts "state" h (by simp)
      List.mem_cons_self
    rw [Json.get_of_lookup hd, Json.eq_of_accepts_const hconst] at hstate
    exact absurd (Document.string.inj hstate) (by decide)

/-- An integer has the value that it spells. -/
theorem number_of_spells {p : Json.Numeral} {m : ℕ} (h : Spells p m) :
    number float p = number float (.natural m) := by
  cases p with
  | natural n =>
      obtain rfl : n = m := h
      rfl
  | negated n =>
      obtain ⟨rfl, rfl⟩ := h
      simp [number]
  | decimal value => cases h

/-- **What selection the consumer accepts.** -/
theorem validateSelection_iff (float : ℚ → WithBot (WithTop ℚ)) {first : Option Document}
    {found : Option NegotiationCandidateV1} {s : Document}
    (hconforms : NegotiationSelectionV1.jsonSchema.accepts selection = true)
    (hfirst : (first = none ∧ found = none) ∨
      ∃ item candidate, first = some item ∧ found = some candidate ∧
        NamesCandidate item candidate ∧ embeddedReceipt item = some candidate.receipt) :
    validateSelection float selection first = .ok s ↔
      s = selection ∧ NamesSelection float selection (selectionOf found) ∧
        (selection.get "state" = .string "no_eligible_candidate" → selection.size = 1) := by
  rcases hfirst with ⟨rfl, rfl⟩ | ⟨item, candidate, rfl, rfl, hname, hreceipt⟩
  · obtain ⟨members, rfl⟩ := exists_object_of_selection hconforms
    rw [validateSelection, selectionOf, NamesSelection]
    by_cases hequal : equal float (.object members)
        (.object [("state", .string "no_eligible_candidate")]) = true
    · obtain ⟨hsize, hstate⟩ := equal_singleton_iff.1 hequal
      rw [hequal]
      exact ⟨fun h => ⟨(Except.ok.inj h).symm, hstate, fun _ => hsize⟩, fun h => by rw [h.1]; rfl⟩
    · rw [Bool.eq_false_iff.2 hequal]
      refine iff_of_false (by simp) ?_
      rintro ⟨-, hstate, htidy⟩
      refine hequal ?_
      exact equal_singleton_iff.2 ⟨htidy hstate, hstate⟩
  · obtain ⟨p, hp, hspells⟩ := hname.preference
    have hreads := ProbeReceiptV1.reads_of_deserialize hreceipt
    obtain ⟨receipt, hobject⟩ := hreads.object
    rw [validateSelection, selectionOf, NamesSelection]
    by_cases hstate : selection.get "state" = .string "selected"
    · obtain ⟨q, capability, adapter, hq, hcapability, hadapter⟩ :=
        exists_selected hconforms hstate
      have hposition : equal float (selection.get "preference") (item.get "preference") = true ↔
          number float q = number float (.natural candidate.preference.toNat) := by
        rw [hq, hp, equal_number, number_of_spells hspells]
      have hsame := equal_capability_iff float hcapability hreads.capability
      have hsame' := equal_adapter_iff float hadapter hreads.adapter
      have htidy : selection.get "state" = .string "no_eligible_candidate" →
          selection.size = 1 := by
        intro hnone
        rw [hstate] at hnone
        exact absurd (Document.string.inj hnone) (by decide)
      have htrue := (equal_string_right float).2 hstate
      rw [htrue, hobject] at *
      simp only [bind, Except.bind, objectField, Bool.not_true, Bool.false_eq_true, if_false,
        Bool.not_eq_true', hcapability, hadapter, Option.some.injEq]
      split_ifs with h₁ h₂ h₃
      · refine iff_of_false (by simp) ?_
        rintro ⟨-, ⟨-, ⟨q', hq', hvalue⟩, -⟩, -⟩
        obtain rfl := Document.number.inj (hq.symm.trans hq')
        rw [hposition.2 hvalue] at h₁
        cases h₁
      · refine iff_of_false (by simp) ?_
        rintro ⟨-, ⟨-, -, hc, -⟩, -⟩
        rw [hsame.2 hc] at h₂
        cases h₂
      · refine iff_of_false (by simp) ?_
        rintro ⟨-, ⟨-, -, -, ha⟩, -⟩
        rw [hsame'.2 ha] at h₃
        cases h₃
      · rw [Bool.not_eq_false] at h₁ h₂ h₃
        constructor
        · intro h
          exact ⟨(Except.ok.inj h).symm, ⟨hstate, ⟨q, hq, hposition.1 h₁⟩, hsame.1 h₂,
            hsame'.1 h₃⟩, htidy⟩
        · rintro ⟨rfl, -⟩
          rfl
    · have hfalse := Bool.eq_false_iff.2 fun htrue =>
        hstate ((equal_string_right float).1 htrue)
      rw [hfalse]
      exact iff_of_false (by simp) fun h => hstate h.2.1.1

end Selection

/-! ### The two implementations -/

section Agreement

variable {b64 : Base64.Codec} {float : ℚ → WithBot (WithTop ℚ)} {d : Document}
  {receipts : List ProbeReceiptV1}

/-- The validator reads the selections that the consumer accepts, where they are spelled with digits
alone. -/
theorem deserialize_selection_iff {selection : Document} {result : NegotiationSelectionV1}
    (hconforms : NegotiationSelectionV1.jsonSchema.accepts selection = true) :
    NegotiationSelectionV1.deserialize selection = some result ↔
      NamesSelection float selection result ∧
        (selection.get "state" = .string "selected" → PlainPreference selection) := by
  obtain ⟨members, hobject⟩ := exists_object_of_selection hconforms
  rw [NegotiationSelectionV1.deserialize_eq_some_iff hobject]
  cases result with
  | noEligibleCandidate =>
      refine ⟨fun hstate => ⟨hstate, fun hselected => ?_⟩, fun h => h.1⟩
      exact absurd (Document.string.inj (hstate.symm.trans hselected)) (by decide)
  | selected preference capability adapter =>
      constructor
      · rintro ⟨hstate, hpreference, hrest⟩
        exact ⟨⟨hstate, ⟨_, hpreference, rfl⟩, hrest⟩, fun _ => ⟨_, hpreference⟩⟩
      · rintro ⟨⟨hstate, ⟨q, hq, hvalue⟩, hrest⟩, hplain⟩
        obtain ⟨n, hn⟩ := hplain hstate
        obtain rfl := Document.number.inj (hq.symm.trans hn)
        obtain rfl := number_natural_eq_iff.1 hvalue
        exact ⟨hstate, hn, hrest⟩

/-- **What the validator accepts**: a document that names the negotiation of its receipts, spelled
with digits alone. -/
theorem deserialize_iff (b64 : Base64.Codec) (float : ℚ → WithBot (WithTop ℚ))
    (n : CapabilityNegotiationV1)
    (hconforms : CapabilityNegotiationV1.jsonSchema.accepts d = true)
    (hreceipts : embeddedReceipts d = some receipts)
    (hvalid : ∀ receipt ∈ receipts, receipt.validate b64 = .ok ()) :
    CapabilityNegotiationV1.deserialize b64 d = some n ↔
      n = negotiateCapabilitiesV1 receipts ∧ Names float d n ∧ Plain d := by
  have hparts := CapabilityNegotiationV1.conforms hconforms
  rw [embeddedReceipts, hparts.candidates, Json.list_eq_some_iff] at hreceipts
  have hnegotiation := negotiateCapabilitiesV1_eq receipts
  have hread : CapabilityNegotiationV1.deserialize b64 d = some n ↔
      CapabilityNegotiationWireV1.deserialize d = some n ∧ n.validate b64 = .ok () := by
    rw [CapabilityNegotiationV1.deserialize]
    simp only [Option.bind_eq_bind, Option.bind_eq_some_iff]
    constructor
    · rintro ⟨m, hm, hmatch⟩
      cases hvalidate : m.validate b64 with
      | ok u =>
          rw [hvalidate] at hmatch
          obtain rfl := Option.some.inj hmatch
          exact ⟨hm, hvalidate⟩
      | error error =>
          rw [hvalidate] at hmatch
          cases hmatch
    · rintro ⟨hm, hvalidate⟩
      exact ⟨n, hm, by rw [hvalidate]⟩
  rw [hread, CapabilityNegotiationWireV1.deserialize_eq_some_iff hconforms,
    CapabilityNegotiationV1.validate_eq_ok_iff, deserialize_selection_iff hparts.selection]
  constructor
  · rintro ⟨⟨-, hcandidates, hselection, hplain⟩, -, hn⟩
    have hmap := receipts_of_deserialize hparts.candidate hreceipts hcandidates
    rw [hmap] at hn
    rw [hn, hnegotiation] at hcandidates
    obtain ⟨hnames, hplains⟩ :=
      (deserialize_candidates_iff hparts.candidate hreceipts).1 hcandidates
    refine ⟨hn, ⟨?_, hselection⟩, hplains, hplain⟩
    rw [hn, hnegotiation]
    exact hnames
  · rintro ⟨rfl, hnames, hplains, hplain⟩
    have hcandidates := hnames.candidates
    rw [hnegotiation] at hcandidates
    have hmap : (negotiateCapabilitiesV1 receipts).candidates.map (·.receipt) = receipts := by
      rw [hnegotiation, map_receipt_candidatesFrom]
    refine ⟨⟨rfl, ?_, hnames.selection, hplain⟩, ?_, by rw [hmap]⟩
    · rw [hnegotiation]
      exact (deserialize_candidates_iff hparts.candidate hreceipts).2 ⟨hcandidates, hplains⟩
    · rw [← hmap] at hvalid
      exact fun candidate hmem => hvalid _ (List.mem_map.2 ⟨candidate, hmem, rfl⟩)

/-- **What the consumer accepts**: a document that names the negotiation of its receipts, and whose
selection has no further members if it selects none. -/
theorem validateNegotiation_iff (float : ℚ → WithBot (WithTop ℚ)) (s : Document)
    (hconforms : CapabilityNegotiationV1.jsonSchema.accepts d = true)
    (hreceipts : embeddedReceipts d = some receipts)
    (hvalid : ∀ receipt ∈ receipts, receipt.validate b64 = .ok ())
    (hlength : receipts.length ≤ 2 ^ 64) :
    validateNegotiation float d = .ok s ↔
      s = d.get "selection" ∧ Names float d (negotiateCapabilitiesV1 receipts) ∧ Tidy d := by
  have hparts := CapabilityNegotiationV1.conforms hconforms
  rw [embeddedReceipts, hparts.candidates, Json.list_eq_some_iff] at hreceipts
  have hnegotiation := negotiateCapabilitiesV1_eq receipts
  have hobjects : ∀ item ∈ (d.get "candidates").items, ∃ members, item = .object members :=
    fun item hitem => Json.exists_object_of_accepts (hparts.candidate item hitem)
  obtain ⟨members, hobject⟩ := hparts.object
  obtain ⟨selection, hselection⟩ := exists_object_of_selection hparts.selection
  have hloop := fun found => validateCandidates_iff float 0 none found
    (by rw [hreceipts.length_eq]; omega) hobjects hreceipts hvalid
  have hschema := (equal_string_right float).2 hparts.schema
  have hcandidates := hparts.candidates
  have hdocument : objectField d "document" = .ok d := by
    rw [hobject]
    rfl
  have hfield : objectField (d.get "selection") "selection" = .ok (d.get "selection") := by
    rw [hselection]
    rfl
  rw [validateNegotiation, hdocument]
  simp only [bind, Except.bind, hschema, Bool.not_true, Bool.false_eq_true, if_false]
  rw [hcandidates]
  simp only [hfield]
  have hnamed : Names float d (negotiateCapabilitiesV1 receipts) ↔
      List.Forall₂ NamesCandidate (d.get "candidates").items (candidatesFrom 0 receipts) ∧
        NamesSelection float (d.get "selection")
          (selectionOf (firstEligible (candidatesFrom 0 receipts))) := by
    rw [hnegotiation]
    exact ⟨fun h => ⟨h.candidates, h.selection⟩, fun h => ⟨h.1, h.2⟩⟩
  by_cases hnames : List.Forall₂ NamesCandidate (d.get "candidates").items
      (candidatesFrom 0 receipts)
  · rw [(hloop _).2 ⟨hnames, rfl⟩, Option.none_or]
    rw [hnamed, and_iff_right hnames]
    exact validateSelection_iff float hparts.selection (firstItem_or hreceipts hnames)
  · rw [hnamed]
    refine iff_of_false (fun h => ?_) fun h => hnames h.2.1.1
    cases hresult : validateCandidates float 0 none (d.get "candidates").items with
    | ok found => exact hnames ((hloop found).1 hresult).1
    | error error =>
        rw [hresult] at h
        cases h

/-- **The two implementations agree** on a document: both accept it or none does, and they name the
same selection. -/
structure Agree (b64 : Base64.Codec) (float : ℚ → WithBot (WithTop ℚ)) (d : Document) : Prop where
  accepted : (∃ n, CapabilityNegotiationV1.deserialize b64 d = some n) ↔
    ∃ s, validateNegotiation float d = .ok s
  selection : ∀ n s, CapabilityNegotiationV1.deserialize b64 d = some n →
    validateNegotiation float d = .ok s →
      NegotiationSelectionV1.deserialize s = some n.selection

end Agreement

/-! ### A document with one receipt -/

/-- The document of a receipt without any evidence. -/
def bareReceiptDocument (name : String) (availability : Availability) (conformance : Conformance)
    (readiness : TransportReadiness) : Document :=
  let adapter : Document :=
    .object [("name", .string (name ++ "-adapter")), ("version", .string "1")]
  .object
    [("schema", .string PROBE_RECEIPT_SCHEMA_V1),
      ("observed_at_unix_ms", .number (.natural 0)),
      ("capability", .object
        [("protocol", .object [("namespace", .string "org.example"), ("name", .string name),
            ("revision", .string "v1")]),
          ("name", .string "pixel-preview")]),
      ("adapter", adapter),
      ("context", .object
        [("tty_endpoint", .string "/dev/tty"),
          ("transport", .object [("adapter", adapter),
            ("readiness", .string readiness.snakeCase), ("preparation_exchanges", .array [])]),
          ("environment_hints", .array []), ("topology", .object [("state", .string "unknown")])]),
      ("exchange", .object
        [("logical_request_base64", .string ""), ("wire_request_base64", .string ""),
          ("response_base64", .string ""), ("events", .array []),
          ("elapsed_ms", .number (.natural 0)), ("stop_reason", .string "timeout")]),
      ("assessment", .object
        [("availability", .string availability.snakeCase),
          ("conformance", .string conformance.snakeCase), ("assertions", .array [])])]

/-- One receipt that is not eligible, and a selection of no candidate with some further members. -/
def unselectedDocument (further : Members) : Document :=
  .object
    [("schema", .string CAPABILITY_NEGOTIATION_SCHEMA_V1),
      ("candidates", .array [.object
        [("preference", .number (.natural 0)), ("disposition", .string "ineligible"),
          ("receipt", bareReceiptDocument "kgp" .unknown .inconclusive .ready)]]),
      ("selection", .object (("state", .string "no_eligible_candidate") :: further))]

theorem unselectedDocument_names (float : ℚ → WithBot (WithTop ℚ)) (further : Members) :
    Names float (unselectedDocument further)
      (negotiateCapabilitiesV1 [bareReceipt "kgp" .unknown .inconclusive .ready]) where
  candidates := .cons ⟨⟨.natural 0, rfl, rfl⟩, rfl⟩ .nil
  selection := rfl

theorem unselectedDocument_plain (further : Members) : Plain (unselectedDocument further) := by
  refine ⟨?_, fun hstate => ?_⟩
  · intro item hitem
    obtain rfl := List.mem_singleton.1 hitem
    exact ⟨0, rfl⟩
  · exact absurd (Document.string.inj hstate) (by decide)

/-- **Where the two implementations agree.**  Let a document conform to the schema, and let all the
receipts that it embeds be valid.  Unless it names the negotiation of these receipts, both reject
it.  If it does, they agree exactly when these two hold or fail together: a selection of no
candidate has no further members, and all preferences are spelled with digits alone.  A list in
memory has fewer than `2 ^ 64` items.  Further members of the selection are taken to be readable by
`serde_json`: numbers in range, bounded nesting, no lone surrogates.  A record is read from an
object only, not from the array of its members that `serde` reads as well; the schema does not admit
that array. -/
theorem implementations_agree_iff (b64 : Base64.Codec) (float : ℚ → WithBot (WithTop ℚ))
    (d : Document) (receipts : List ProbeReceiptV1)
    (hconforms : CapabilityNegotiationV1.jsonSchema.accepts d = true)
    (hreceipts : embeddedReceipts d = some receipts)
    (hvalid : ∀ receipt ∈ receipts, receipt.validate b64 = .ok ())
    (hlength : receipts.length ≤ 2 ^ 64) :
    Agree b64 float d ↔
      (Names float d (negotiateCapabilitiesV1 receipts) → (Tidy d ↔ Plain d)) := by
  have hrust := fun n => deserialize_iff b64 float n hconforms hreceipts hvalid
  have hpython := fun s => validateNegotiation_iff float s hconforms hreceipts
    hvalid hlength
  have haccepted : (∃ n, CapabilityNegotiationV1.deserialize b64 d = some n) ↔
      Names float d (negotiateCapabilitiesV1 receipts) ∧ Plain d := by
    constructor
    · rintro ⟨n, hn⟩
      obtain ⟨rfl, hnames, hplain⟩ := (hrust n).1 hn
      exact ⟨hnames, hplain⟩
    · exact fun h => ⟨_, (hrust _).2 ⟨rfl, h.1, h.2⟩⟩
  have hreturned : (∃ s, validateNegotiation float d = .ok s) ↔
      Names float d (negotiateCapabilitiesV1 receipts) ∧ Tidy d := by
    constructor
    · rintro ⟨s, hs⟩
      exact ((hpython s).1 hs).2
    · exact fun h => ⟨_, (hpython _).2 ⟨rfl, h⟩⟩
  constructor
  · intro h hnames
    have hboth := h.accepted
    rw [haccepted, hreturned] at hboth
    exact ⟨fun htidy => (hboth.2 ⟨hnames, htidy⟩).2, fun hplain => (hboth.1 ⟨hnames, hplain⟩).2⟩
  · intro h
    refine ⟨?_, fun n s hn hs => ?_⟩
    · rw [haccepted, hreturned]
      exact ⟨fun ⟨hnames, hplain⟩ => ⟨hnames, (h hnames).2 hplain⟩,
        fun ⟨hnames, htidy⟩ => ⟨hnames, (h hnames).1 htidy⟩⟩
    · obtain ⟨-, hnames, -, hplain⟩ := (hrust n).1 hn
      obtain ⟨rfl, -⟩ := (hpython s).1 hs
      exact (deserialize_selection_iff (CapabilityNegotiationV1.conforms hconforms).selection).2
        ⟨hnames.selection, hplain⟩

/-- They agree on a document that selects none of one receipt. -/
theorem implementations_agree_unselected :
    Agree Base64.standard (fun value => (value : WithTop ℚ)) (unselectedDocument []) :=
  (implementations_agree_iff Base64.standard _ (unselectedDocument [])
    [bareReceipt "kgp" .unknown .inconclusive .ready] (by rfl) rfl
    (List.forall_mem_singleton.2 rfl) (by decide)).2
      fun _ => ⟨fun _ => unselectedDocument_plain [], fun _ _ => rfl⟩

/-- **The same document with one more member** in its selection conforms to the schema, and is
accepted by the validator but not by the consumer. -/
theorem implementations_disagree_on_member :
    CapabilityNegotiationV1.jsonSchema.accepts
        (unselectedDocument [("note", .boolean true)]) = true ∧
      embeddedReceipts (unselectedDocument [("note", .boolean true)]) =
        some [bareReceipt "kgp" .unknown .inconclusive .ready] ∧
      (bareReceipt "kgp" .unknown .inconclusive .ready).validate Base64.standard = .ok () ∧
      ¬ Agree Base64.standard (fun value => (value : WithTop ℚ))
        (unselectedDocument [("note", .boolean true)]) := by
  have hconforms : CapabilityNegotiationV1.jsonSchema.accepts
      (unselectedDocument [("note", .boolean true)]) = true := by rfl
  have hreceipts : embeddedReceipts (unselectedDocument [("note", .boolean true)]) =
      some [bareReceipt "kgp" .unknown .inconclusive .ready] := rfl
  have hvalid : (bareReceipt "kgp" .unknown .inconclusive .ready).validate Base64.standard =
      .ok () := rfl
  have hvalids : ∀ receipt ∈ [bareReceipt "kgp" .unknown .inconclusive .ready],
      receipt.validate Base64.standard = .ok () := List.forall_mem_singleton.2 hvalid
  refine ⟨hconforms, hreceipts, hvalid, fun hagree => ?_⟩
  have hread := (deserialize_iff _ (fun value => (value : WithTop ℚ)) _ hconforms hreceipts
    hvalids).2 ⟨rfl, unselectedDocument_names _ _, unselectedDocument_plain _⟩
  obtain ⟨s, hs⟩ := hagree.accepted.1 ⟨_, hread⟩
  obtain ⟨-, -, htidy⟩ := (validateNegotiation_iff _ _ hconforms hreceipts hvalids (by decide)).1 hs
  exact absurd (htidy rfl) (by decide)

end ConsumeNegotiation

end TermInterop
