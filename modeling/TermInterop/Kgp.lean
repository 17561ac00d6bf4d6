/-
The Kitty Graphics Protocol adapter: the query, the parser of a reply stream and its assessment.

A reply stream interleaves two kinds of reply: protocol replies, framed as application program
commands, and the primary-device-attributes reply that ends the query window.  `parseExchange`
walks over the stream, records the replies with their offsets, and concludes from their order and
from the identifiers they carry.

The parser only looks at what follows an offset.  `parseApcEvent_eq_some_iff` says what it finds
there, and `field_eq_some_iff` what the map of control fields holds under a key: the value of the
last field with that key.  The assessment is a matter of two events, the first reply with the
expected identifier and the first barrier; the section on verdicts spells out what it makes of them.

Main definitions:

* `TermInterop.Kgp.buildQuery` — the query and its barrier;
* `TermInterop.Kgp.parseApcEvent`, `TermInterop.Kgp.parseDa1Event` — one reply at an offset;
* `TermInterop.Kgp.assess`, `TermInterop.Kgp.parseExchange` — the conclusion.

Main results:

* `TermInterop.Kgp.parseApcEvent_eq_some_iff` — **what a parsed protocol reply is**;
* `TermInterop.Kgp.field_eq_some_iff` — the last field with a key counts;
* `TermInterop.Kgp.conformant_iff` — **when a stream is assessed conformant**;
* `TermInterop.Kgp.sequence_parseExchange` — the events are numbered in order.
-/

import TermInterop.Da1

set_option relaxedAutoImplicit false
set_option autoImplicit false

namespace TermInterop

namespace Kgp

/-- The string terminator of an application program command. -/
def ST : Bytes := [ESC, ascii '\\']

/-- Adapter implementation version. -/
def ADAPTER_VERSION : String := "0.1.0"

/-- Why a probe cannot be constructed. -/
inductive ProbeBuildError
  | zeroCorrelationId
  deriving DecidableEq

/-- One event with the offset at which it was found. -/
structure ObservedEvent where
  offset : ℕ
  event : WireEvent

/-- Parsed response and its profile assessment. -/
structure ParsedExchange where
  events : List WireEvent
  assessment : Assessment
  correlatedReplySeen : Bool
  barrierSeen : Bool

/-- Protocol identity for the first KGP interoperability profile. -/
def protocolId : ProtocolId :=
  ⟨"org.kitty", "terminal-graphics-protocol", "query-direct-rgb-v1"⟩

/-- Capability identity established by the query probe. -/
def capabilityId : CapabilityId := ⟨protocolId, "direct-rgb-query"⟩

/-- Identity of this adapter implementation. -/
def adapterIdentity : AdapterIdentity := ⟨"terminal-interop-kgp", ADAPTER_VERSION⟩

/-- The official one-pixel query followed by a DA1 ordering barrier. -/
def buildQuery (correlationId : UInt32) : Except ProbeBuildError Bytes :=
  if correlationId = 0 then .error .zeroCorrelationId
  else
    .ok (Text.asBytes ("\x1b_Gi=" ++ Nat.repr correlationId.toNat ++
      ",s=1,v=1,a=q,t=d,f=24;AAAA\x1b\\") ++ Text.asBytes "\x1b[c")

/-! ### The parser -/

/-- The offset of the first string terminator from an offset on. -/
def findSt (input : Bytes) (from_ : ℕ) : Option ℕ := do
  let rest ← Slices.sliceFrom? input from_
  let relative ← Slices.position ST rest
  some (from_ + relative)

/-- The key and the value of one control field; a field without a key is dropped. -/
def parseField (field : List Char) : Option (String × String) := do
  let (key, value) ← Text.splitOnce '=' field
  if key = [] then none else some (String.ofList key, String.ofList value)

/-- A map of key-value pairs, the last value of a key replacing those before it. -/
def collectFields (pairs : List (String × String)) : Fields :=
  pairs.foldl (fun fields pair => fields.insert pair.1 pair.2) ∅

/-- The control fields of a reply. -/
def parseControlFields (control : Bytes) : Fields :=
  collectFields (((Utf8Lossy.decode control).splitOn ',').filterMap parseField)

/-- The control part of a body, and the status text behind the first semicolon. -/
def splitBody (body : Bytes) : Bytes × Option String :=
  match body.findIdx? (· = ascii ';') with
  | none => (body, none)
  | some separator =>
      ((Slices.slice? body 0 separator).getD [],
        some (String.ofList
          (Utf8Lossy.decode ((Slices.sliceFrom? body (separator + 1)).getD []))))

/-- The first three bytes of a protocol reply. -/
def apcIntro : Bytes := [ESC, ascii '_', ascii 'G']

/-- **Parse one protocol reply at an exact offset**, with the offset behind it. -/
def parseApcEvent (b64 : Base64.Codec) (input : Bytes) (offset : ℕ) (sequence : UInt32) :
    Option (ObservedEvent × ℕ) := do
  let prefixEnd := offset + 3
  let head ← Slices.slice? input offset prefixEnd
  if head ≠ apcIntro then none else
  let end_ ← findSt input prefixEnd
  let body ← Slices.slice? input prefixEnd end_
  let (control, status) := splitBody body
  let fields := parseControlFields control
  let correlationId := fields["i"]?.bind fun value => parseU32 value.toList
  let rawEnd := end_ + ST.length
  let raw ← Slices.slice? input offset rawEnd
  let event : WireEvent :=
    { sequence := sequence
      role := .capabilityReply
      protocol := some protocolId
      correlation := correlationId.map fun value => Nat.repr value.toNat
      status := status
      fields := fields
      rawBase64 := b64.encode raw }
  some (⟨offset, event⟩, rawEnd)

/-- Parse one barrier reply at an exact offset, with the offset behind it. -/
def parseDa1Event (b64 : Base64.Codec) (input : Bytes) (offset : ℕ) (sequence : UInt32) :
    Option (ObservedEvent × ℕ) := do
  let response ← Da1.parseResponseAt b64 input offset
  some (⟨offset, response.wireEvent sequence .barrierReply⟩, response.endOffset)

/-! ### The assessment -/

/-- One assertion result. -/
def assertion (id : String) (outcome : AssertionOutcome) (detail : String) : AssertionResult :=
  ⟨id, outcome, detail⟩

/-- The debug form of a correlation.  It is a printed number, in which nothing is escaped. -/
def debugCorrelation : Option String → String
  | none => "None"
  | some value => "Some(\"" ++ value ++ "\")"

/-- The assessment of a reply with the expected identifier. -/
def assessMatchingReply (reply : ObservedEvent) (barrier : Option ObservedEvent)
    (correlationId : UInt32) : Assessment :=
  let statusOk : Bool := reply.event.status = some "OK"
  let ordered : Bool := barrier.all fun barrier => reply.offset < barrier.offset
  let barrierOutcome := if barrier.isSome then AssertionOutcome.pass else .unknown
  let assertions :=
    [assertion "kgp.query.correlated-reply" .pass
        ("received reply for image id " ++ Nat.repr correlationId.toNat),
      assertion "kgp.query.reply-before-da1-barrier"
        (if barrier.isNone then .unknown else if ordered then .pass else .fail)
        (if barrier.isNone then "DA1 barrier was not observed"
          else if ordered then "KGP reply preceded the DA1 barrier"
          else "KGP reply arrived after the DA1 barrier"),
      assertion "kgp.query.direct-rgb-load" (if statusOk then .pass else .fail)
        (match reply.event.status with
          | none => "KGP reply did not contain a status"
          | some status => "KGP status was " ++ status),
      assertion "kgp.query.da1-barrier" barrierOutcome
        (if barrier.isSome then "DA1 barrier reply was observed"
          else "DA1 barrier reply was not observed")]
  let conformance :=
    if barrier.isNone then Conformance.inconclusive
    else if statusOk && ordered then .conformant
    else .nonconformant
  ⟨.available, conformance, assertions⟩

/-- The assessment of a reply with another identifier. -/
def assessUnmatchedReply (unmatched : ObservedEvent) (barrier : Option ObservedEvent)
    (correlationId : UInt32) : Assessment :=
  ⟨.available, .nonconformant,
    [assertion "kgp.query.correlated-reply" .fail
        ("received KGP reply for " ++ debugCorrelation unmatched.event.correlation ++
          ", expected " ++ Nat.repr correlationId.toNat),
      assertion "kgp.query.da1-barrier" (if barrier.isSome then .pass else .unknown)
        "barrier state retained independently of the malformed correlation"]⟩

/-- The assessment of a barrier without a reply. -/
def assessUnavailable : Assessment :=
  ⟨.unavailable, .notApplicable,
    [assertion "kgp.query.correlated-reply" .notApplicable
        "DA1 barrier arrived without a KGP reply",
      assertion "kgp.query.da1-barrier" .pass
        "DA1 barrier established the end of the ordered query window"]⟩

/-- The assessment of silence. -/
def assessUnknown : Assessment :=
  ⟨.unknown, .inconclusive,
    [assertion "kgp.query.correlated-reply" .unknown "no correlated KGP reply was observed",
      assertion "kgp.query.da1-barrier" .unknown "no DA1 barrier reply was observed"]⟩

/-- A protocol reply. -/
def ObservedEvent.isReply (observed : ObservedEvent) : Bool :=
  observed.event.role = .capabilityReply

/-- A barrier reply. -/
def ObservedEvent.isBarrier (observed : ObservedEvent) : Bool :=
  observed.event.role = .barrierReply

/-- An event with the expected identifier. -/
def ObservedEvent.hasCorrelation (correlationId : UInt32) (observed : ObservedEvent) : Bool :=
  observed.event.correlation = some (Nat.repr correlationId.toNat)

/-- **The assessment of the observed events.** -/
def assess (events : List ObservedEvent) (correlationId : UInt32) : Assessment :=
  let kgpEvents := events.filter ObservedEvent.isReply
  let matching := kgpEvents.find? (ObservedEvent.hasCorrelation correlationId)
  let barrier := events.find? ObservedEvent.isBarrier
  match matching with
  | some reply => assessMatchingReply reply barrier correlationId
  | none =>
      match kgpEvents.head? with
      | some unmatched => assessUnmatchedReply unmatched barrier correlationId
      | none => if barrier.isSome then assessUnavailable else assessUnknown

/-- The recognizer of the scan: a protocol reply, or else a barrier reply. -/
def find (b64 : Base64.Codec) (input : Bytes) (sequence : UInt32) (offset : ℕ) :
    Option (ObservedEvent × ℕ) :=
  match parseApcEvent b64 input offset sequence with
  | some hit => some hit
  | none => parseDa1Event b64 input offset sequence


/-! ### What a parsed protocol reply is -/

/-- Before a terminator that ends a body, a terminator starts exactly where one lies inside the
body. -/
theorem forall_not_prefix_iff {body rest : Bytes} :
    (∀ j < body.length, ¬ ST <+: (body ++ ST ++ rest).drop j) ↔ ¬ ST <:+: body := by
  constructor
  · rintro h ⟨before, after, rfl⟩
    refine h before.length (by simp [ST]) ⟨after ++ (ST ++ rest), ?_⟩
    simp
  · intro h j hj hpre
    obtain ⟨x, tail, htail⟩ := List.exists_cons_of_ne_nil (l := body.drop j) (by simpa using hj)
    rw [List.append_assoc, List.drop_append_of_le_length hj.le, htail, ST, List.cons_append,
      List.cons_prefix_cons] at hpre
    obtain ⟨rfl, hpre⟩ := hpre
    cases tail with
    | nil =>
        -- the terminator would start inside the one that ends the body
        rw [List.nil_append, List.cons_append, List.cons_prefix_cons] at hpre
        exact absurd hpre.1 (by decide)
    | cons y tail =>
        rw [List.cons_append, List.cons_prefix_cons] at hpre
        obtain ⟨rfl, -⟩ := hpre
        refine h ⟨body.take j, tail, ?_⟩
        rw [List.append_assoc, ST, List.cons_append, List.cons_append, List.nil_append, ← htail,
          List.take_append_drop]

/-- Where the first terminator stands. -/
theorem findSt_eq_some_iff {input : Bytes} {from_ end_ : ℕ} :
    findSt input from_ = some end_ ↔
      ∃ body rest, input.drop from_ = body ++ ST ++ rest ∧ ¬ ST <:+: body ∧
        end_ = from_ + body.length := by
  simp only [findSt, Option.bind_eq_bind, Option.bind_eq_some_iff, Slices.sliceFrom?_eq_some_iff,
    Slices.position_eq_some_iff (show ST ≠ [] by simp [ST]), Option.some_inj]
  constructor
  · rintro ⟨_, ⟨-, rfl⟩, k, ⟨⟨rest, hrest⟩, hbefore⟩, rfl⟩
    have hlt : from_ + k < input.length := by
      refine Slices.lt_length_of_drop_ne_nil ?_
      rw [← List.drop_drop, ← hrest]
      simp [ST]
    have hlen : ((input.drop from_).take k).length = k := by
      rw [List.length_take, List.length_drop]
      omega
    have heq : input.drop from_ = (input.drop from_).take k ++ ST ++ rest := by
      rw [List.append_assoc, hrest, List.take_append_drop]
    refine ⟨(input.drop from_).take k, rest, heq, ?_, by rw [hlen]⟩
    have hfree : ∀ j < ((input.drop from_).take k).length,
        ¬ ST <+: ((input.drop from_).take k ++ ST ++ rest).drop j := by
      intro j hj
      rw [← heq]
      exact hbefore j (by omega)
    exact forall_not_prefix_iff.1 hfree
  · rintro ⟨body, rest, heq, hbody, rfl⟩
    have hlt : from_ < input.length := by
      refine Slices.lt_length_of_drop_ne_nil ?_
      rw [heq]
      simp [ST]
    refine ⟨_, ⟨hlt.le, rfl⟩, body.length, ⟨⟨rest, ?_⟩, ?_⟩, rfl⟩
    · rw [heq, List.append_assoc, List.drop_left]
    · rw [heq]
      exact forall_not_prefix_iff.2 hbody

/-- A body is split at its first semicolon. -/
theorem splitBody_eq (body : Bytes) :
    splitBody body = match Text.splitOnce (ascii ';') body with
      | none => (body, none)
      | some (control, payload) =>
          (control, some (String.ofList (Utf8Lossy.decode payload))) := by
  rw [splitBody]
  cases hsplit : Text.splitOnce (ascii ';') body with
  | none =>
      have hnone : body.findIdx? (· = ascii ';') = none := by
        rw [List.findIdx?_eq_none_iff]
        intro b hb
        have hne : b ≠ ascii ';' := by
          rintro rfl
          exact Text.splitOnce_eq_none_iff.1 hsplit hb
        simpa using hne
      rw [hnone]
  | some parts =>
      obtain ⟨control, payload⟩ := parts
      obtain ⟨rfl, hnot⟩ := Text.splitOnce_eq_some_iff.1 hsplit
      have hsome : (control ++ ascii ';' :: payload).findIdx? (· = ascii ';') =
          some control.length := by
        rw [List.findIdx?_eq_some_iff_getElem]
        refine ⟨by simp, by simp, fun j hj => ?_⟩
        rw [List.getElem_append_left hj]
        have hne : control[j] ≠ ascii ';' := fun h => hnot (h ▸ List.getElem_mem hj)
        simpa using hne
      have hcontrol : Slices.slice? (control ++ ascii ';' :: payload) 0 control.length =
          some control := Slices.slice?_of_drop rfl (by simp) (by simp)
      have hpayload : Slices.sliceFrom? (control ++ ascii ';' :: payload) (control.length + 1) =
          some payload := by
        rw [Slices.sliceFrom?_eq_some_iff]
        refine ⟨by simp, ?_⟩
        rw [← List.drop_drop, List.drop_left]
        rfl
      rw [hsome]
      simp only [hcontrol, hpayload, Option.getD_some]

/-- The protocol reply with a given body. -/
def apcEvent (b64 : Base64.Codec) (sequence : UInt32) (body : Bytes) : WireEvent :=
  let fields := parseControlFields (splitBody body).1
  { sequence := sequence
    role := .capabilityReply
    protocol := some protocolId
    correlation := (fields["i"]?.bind fun value => parseU32 value.toList).map fun value =>
      Nat.repr value.toNat
    status := (splitBody body).2
    fields := fields
    rawBase64 := b64.encode (apcIntro ++ body ++ ST) }

section Parse

variable {b64 : Base64.Codec} {input : Bytes} {offset : ℕ} {sequence : UInt32}

/-- **What a parsed protocol reply is**: the offset is followed by its first three bytes, a body
without a terminator, and a terminator. -/
theorem parseApcEvent_eq_some_iff {hit : ObservedEvent × ℕ} :
    parseApcEvent b64 input offset sequence = some hit ↔
      ∃ body rest, input.drop offset = apcIntro ++ body ++ ST ++ rest ∧ ¬ ST <:+: body ∧
        hit = (⟨offset, apcEvent b64 sequence body⟩, offset + body.length + 5) := by
  simp only [parseApcEvent, Option.bind_eq_bind, Option.bind_eq_some_iff]
  constructor
  · rintro ⟨head, hhead, h⟩
    split at h
    · cases h
    · rename_i hintro
      obtain rfl : head = apcIntro := not_not.1 hintro
      obtain ⟨-, -, rest₀, hdrop⟩ := Slices.slice?_eq_some_iff.1 hhead
      have hdrop3 : input.drop (offset + 3) = rest₀ :=
        Slices.drop_add_of_append (m := apcIntro) hdrop.symm
      simp only [Option.bind_eq_some_iff, Option.some_inj] at h
      obtain ⟨end_, hend, body', hbody', raw, hraw, rfl⟩ := h
      obtain ⟨body, rest, hrest, hclean, rfl⟩ := findSt_eq_some_iff.1 hend
      have heq : input.drop offset = apcIntro ++ body ++ ST ++ rest := by
        rw [← hdrop, ← hdrop3, hrest]
        simp
      have hlt : offset < input.length :=
        Slices.lt_length_of_drop_ne_nil (by rw [heq]; simp [apcIntro])
      have hlt3 : offset + 3 < input.length :=
        Slices.lt_length_of_drop_ne_nil (by rw [hrest]; simp [ST])
      obtain rfl : body' = body := by
        have hslice := Slices.slice?_of_drop (b := offset + 3 + body.length)
          (hrest.trans (List.append_assoc ..)) hlt3.le rfl
        exact Option.some_inj.1 (hbody'.symm.trans hslice)
      obtain rfl : raw = apcIntro ++ body' ++ ST := by
        have hslice := Slices.slice?_of_drop (b := offset + 3 + body'.length + ST.length) heq
          hlt.le (by simp [apcIntro]; omega)
        exact Option.some_inj.1 (hraw.symm.trans hslice)
      refine ⟨body', rest, heq, hclean, Prod.ext rfl ?_⟩
      simp only [ST, List.length_cons, List.length_nil]
      omega
  · rintro ⟨body, rest, heq, hclean, rfl⟩
    have hlt : offset < input.length :=
      Slices.lt_length_of_drop_ne_nil (by rw [heq]; simp [apcIntro])
    have hdrop3 : input.drop (offset + 3) = body ++ ST ++ rest :=
      Slices.drop_add_of_append (m := apcIntro) (by rw [heq]; simp)
    have hlt3 : offset + 3 < input.length :=
      Slices.lt_length_of_drop_ne_nil (by rw [hdrop3]; simp [ST])
    have hintro : input.drop offset = apcIntro ++ (body ++ ST ++ rest) := by
      rw [heq]
      simp
    refine ⟨apcIntro, Slices.slice?_of_drop hintro hlt.le rfl, ?_⟩
    rw [if_neg (by simp)]
    simp only [Option.bind_eq_some_iff, Option.some_inj]
    refine ⟨offset + 3 + body.length, findSt_eq_some_iff.2 ⟨body, rest, hdrop3, hclean, rfl⟩,
      body, Slices.slice?_of_drop (hdrop3.trans (List.append_assoc ..)) hlt3.le rfl,
      apcIntro ++ body ++ ST, Slices.slice?_of_drop heq hlt.le (by simp [apcIntro]; omega),
      Prod.ext rfl ?_⟩
    simp only [ST, List.length_cons, List.length_nil]
    omega

/-- A recognized reply is a protocol reply or a barrier reply. -/
theorem find_eq_some_iff {hit : ObservedEvent × ℕ} :
    find b64 input sequence offset = some hit ↔
      parseApcEvent b64 input offset sequence = some hit ∨
        parseApcEvent b64 input offset sequence = none ∧
          ∃ response, Da1.parseResponseAt b64 input offset = some response ∧
            hit = (⟨offset, response.wireEvent sequence .barrierReply⟩, response.endOffset) := by
  rw [find, parseDa1Event]
  cases parseApcEvent b64 input offset sequence with
  | none => simp only [Option.bind_eq_bind, Option.bind_eq_some_iff, Option.some_inj, reduceCtorEq,
      false_or, true_and, eq_comm (a := hit)]
  | some hit' => simp

/-- No reply stands where its first byte does not. -/
theorem find_eq_none_of_head (h : (input.drop offset).head? ≠ some ESC) :
    find b64 input sequence offset = none := by
  rw [Option.eq_none_iff_forall_ne_some]
  intro hit hhit
  obtain hapc | ⟨-, response, hda1, -⟩ := find_eq_some_iff.1 hhit
  · obtain ⟨body, rest, hdrop, -⟩ := parseApcEvent_eq_some_iff.1 hapc
    exact h (by rw [hdrop]; rfl)
  · rw [Da1.parseResponseAt_eq_none_of_head h] at hda1
    cases hda1

/-- A recognized reply starts at its offset, carries the sequence number, and ends behind its
offset, inside the stream. -/
theorem find_bounds {observed : ObservedEvent} {next : ℕ}
    (h : find b64 input sequence offset = some (observed, next)) :
    observed.offset = offset ∧ observed.event.sequence = sequence ∧
      offset < next ∧ next ≤ input.length := by
  obtain hapc | ⟨-, response, hda1, heq⟩ := find_eq_some_iff.1 h
  · obtain ⟨body, rest, hdrop, -, heq⟩ := parseApcEvent_eq_some_iff.1 hapc
    obtain ⟨rfl, rfl⟩ := Prod.mk.inj heq
    have hlen := congrArg List.length hdrop
    simp only [List.length_drop, List.length_append, apcIntro, ST, List.length_cons,
      List.length_nil] at hlen
    exact ⟨rfl, rfl, by omega, by omega⟩
  · obtain ⟨rfl, rfl⟩ := Prod.mk.inj heq
    exact ⟨rfl, rfl, Da1.parseResponseAt_bounds hda1⟩

end Parse


/-! ### The control fields -/

/-- A collected map holds the last value of a key. -/
theorem getElem?_collectFields (pairs : List (String × String)) (key : String) :
    (collectFields pairs)[key]? = (pairs.filter (·.1 = key)).getLast?.map Prod.snd := by
  induction pairs using List.reverseRecOn with
  | nil => rfl
  | append_singleton pairs pair ih =>
      rw [collectFields] at ih ⊢
      rw [List.foldl_append, List.foldl_cons, List.foldl_nil, Std.ExtTreeMap.getElem?_insert, ih,
        List.filter_append]
      by_cases hkey : pair.1 = key
      · subst hkey
        simp
      · simp [hkey]

/-- The value of a field with a given key. -/
theorem parseField_eq_some_iff {field : List Char} {key : String} {value : String} :
    parseField field = some (key, value) ↔
      field = key.toList ++ '=' :: value.toList ∧ '=' ∉ key.toList ∧ key.toList ≠ [] := by
  rw [parseField]
  simp only [Option.bind_eq_bind, Option.bind_eq_some_iff, Prod.exists]
  constructor
  · rintro ⟨k, v, hsplit, h⟩
    split at h
    · cases h
    · rename_i hne
      obtain ⟨rfl, rfl⟩ := Prod.mk.inj (Option.some_inj.1 h)
      obtain ⟨rfl, hnot⟩ := Text.splitOnce_eq_some_iff.1 hsplit
      simpa using ⟨hnot, hne⟩
  · rintro ⟨rfl, hnot, hne⟩
    exact ⟨key.toList, value.toList, Text.splitOnce_eq_some_iff.2 ⟨rfl, hnot⟩, by simp [hne]⟩

/-- **The last field with a key counts.** -/
theorem field_eq_some_iff {control : Bytes} {key value : String} (hnot : '=' ∉ key.toList)
    (hne : key.toList ≠ []) :
    (parseControlFields control)[key]? = some value ↔
      ∃ before after, (Utf8Lossy.decode control).splitOn ',' =
        before ++ (key.toList ++ '=' :: value.toList) :: after ∧
        ∀ field ∈ after, ¬ key.toList ++ ['='] <+: field := by
  have hfield : ∀ field v, ((parseField field).filter (·.1 = key)).map Prod.snd = some v ↔
      field = key.toList ++ '=' :: v.toList := by
    intro field v
    rw [Option.map_eq_some_iff]
    constructor
    · rintro ⟨⟨k, v⟩, hpair, rfl⟩
      rw [Option.filter_eq_some_iff] at hpair
      obtain ⟨hparse, hkey⟩ := hpair
      obtain rfl : k = key := by simpa using hkey
      exact (parseField_eq_some_iff.1 hparse).1
    · rintro rfl
      refine ⟨(key, v), ?_, rfl⟩
      rw [Option.filter_eq_some_iff]
      exact ⟨parseField_eq_some_iff.2 ⟨rfl, hnot, hne⟩, by simp⟩
  have hnone : ∀ field, ((parseField field).filter (·.1 = key)).map Prod.snd = none ↔
      ¬ key.toList ++ ['='] <+: field := by
    intro field
    rw [← not_iff_not, not_not, ← ne_eq, Option.ne_none_iff_exists']
    constructor
    · rintro ⟨v, hv⟩
      rw [hfield] at hv
      exact ⟨v.toList, by rw [hv]; simp⟩
    · rintro ⟨rest, rfl⟩
      exact ⟨String.ofList rest, (hfield _ _).2 (by simp)⟩
  rw [parseControlFields, getElem?_collectFields, List.filter_filterMap, ← List.getLast?_map,
    List.map_filterMap, List.getLast?_filterMap, List.findSome?_eq_some_iff]
  constructor
  · rintro ⟨after, field, before, heq, hval, hafter⟩
    refine ⟨before.reverse, after.reverse, ?_, ?_⟩
    · rw [← (hfield field value).1 hval, ← List.reverse_inj, heq]
      simp
    · intro field hmem
      exact (hnone field).1 (hafter field (List.mem_reverse.1 hmem))
  · rintro ⟨before, after, heq, hafter⟩
    refine ⟨after.reverse, _, before.reverse, by rw [heq]; simp, (hfield _ value).2 rfl, ?_⟩
    intro field hmem
    exact (hnone field).2 (hafter field (List.mem_reverse.1 hmem))

/-- A control part names an identifier: its last field `i=` is that number. -/
def Correlates (correlationId : UInt32) (control : Bytes) : Prop :=
  ∃ before value after, (Utf8Lossy.decode control).splitOn ',' =
    before ++ ('i' :: '=' :: value) :: after ∧
    (∀ field ∈ after, ¬ ['i', '='] <+: field) ∧ parseU32 value = some correlationId

/-- **A reply has the expected identifier when its control part names it.** -/
theorem hasCorrelation_apcEvent {b64 : Base64.Codec} {offset : ℕ} {sequence correlationId : UInt32}
    {body : Bytes} :
    ObservedEvent.hasCorrelation correlationId ⟨offset, apcEvent b64 sequence body⟩ = true ↔
      Correlates correlationId (splitBody body).1 := by
  simp only [ObservedEvent.hasCorrelation, apcEvent, decide_eq_true_eq, Option.map_eq_some_iff,
    Option.bind_eq_some_iff]
  constructor
  · rintro ⟨number, ⟨value, hvalue, hparse⟩, hrepr⟩
    obtain ⟨before, after, heq, hafter⟩ :=
      (field_eq_some_iff (by decide) (by decide)).1 hvalue
    obtain rfl : number = correlationId := UInt32.toNat_inj.1 (Nat.repr_inj.1 hrepr)
    exact ⟨before, value.toList, after, heq, hafter, hparse⟩
  · rintro ⟨before, value, after, heq, hafter, hparse⟩
    refine ⟨correlationId, ⟨String.ofList value, ?_, by simpa using hparse⟩, rfl⟩
    refine (field_eq_some_iff (by decide) (by decide)).2 ⟨before, after, ?_, hafter⟩
    simpa using heq

/-! ### The exchange -/

/-- The recognizer of the scan, numbering the events it records. -/
def recognizer (b64 : Base64.Codec) (input : Bytes) : ScanLoop.Recognizer UInt32 ObservedEvent where
  find := find b64 input
  progress _ _ _ _ h := (find_bounds h).2.2.1

/-- The events of a stream with their offsets. -/
def observe (b64 : Base64.Codec) (input : Bytes) : List ObservedEvent :=
  ScanLoop.scan (recognizer b64 input) saturatingSucc input.length 0

/-- **Parse replies while preserving their order and exact bytes.** -/
def parseExchange (b64 : Base64.Codec) (input : Bytes) (correlationId : UInt32) : ParsedExchange :=
  let observed := observe b64 input
  { events := observed.map ObservedEvent.event
    assessment := assess observed correlationId
    correlatedReplySeen := observed.any fun observed =>
      observed.isReply && observed.hasCorrelation correlationId
    barrierSeen := observed.any ObservedEvent.isBarrier }

/-- The state of the counter after `index` events. -/
theorem iterate_saturatingSucc (index : ℕ) : saturatingSucc^[index] 0 = u32FromIndex index := by
  induction index with
  | zero => rfl
  | succ index ih => rw [Function.iterate_succ_apply', ih, u32FromIndex_succ]

/-- **The events are numbered in order**, up to the greatest number. -/
theorem sequence_parseExchange {b64 : Base64.Codec} {input : Bytes} {correlationId : UInt32}
    {index : ℕ} {event : WireEvent}
    (h : (parseExchange b64 input correlationId).events[index]? = some event) :
    event.sequence = u32FromIndex index := by
  rw [parseExchange, List.getElem?_map, Option.map_eq_some_iff] at h
  obtain ⟨observed, hobs, rfl⟩ := h
  obtain ⟨offset, next, hfind⟩ := ScanLoop.getElem?_scanFrom 0 0 index observed hobs
  rw [(find_bounds hfind).2.1, iterate_saturatingSucc]

/-- The bytes of every event are Base64. -/
theorem isBase64_parseExchange {b64 : Base64.Codec} {input : Bytes} {correlationId : UInt32}
    {event : WireEvent} (h : event ∈ (parseExchange b64 input correlationId).events) :
    IsBase64 b64 event.rawBase64 := by
  obtain ⟨observed, hmem, rfl⟩ := List.mem_map.1 h
  obtain ⟨index, hobs⟩ := List.mem_iff_getElem?.1 hmem
  obtain ⟨offset, next, hfind⟩ := ScanLoop.getElem?_scanFrom 0 0 index observed hobs
  obtain hapc | ⟨-, response, hda1, heq⟩ := find_eq_some_iff.1 hfind
  · obtain ⟨body, rest, -, -, heq⟩ := parseApcEvent_eq_some_iff.1 hapc
    obtain ⟨rfl, -⟩ := Prod.mk.inj heq
    exact isBase64_encode b64 _
  · obtain ⟨rfl, -⟩ := Prod.mk.inj heq
    obtain ⟨run, rest, parameters, -, -, -, -, rfl⟩ := Da1.parseResponseAt_eq_some_iff.1 hda1
    exact isBase64_encode b64 _

/-! ### Verdicts -/

section Verdict

variable {events : List ObservedEvent} {correlationId : UInt32}

/-- The first reply with the expected identifier. -/
def firstMatching (events : List ObservedEvent) (correlationId : UInt32) : Option ObservedEvent :=
  events.find? fun observed => observed.isReply && observed.hasCorrelation correlationId

theorem firstMatching_cons {event : ObservedEvent} :
    firstMatching (event :: events) correlationId =
      if (event.isReply && event.hasCorrelation correlationId) = true then some event
      else firstMatching events correlationId := by
  rw [firstMatching, List.find?_cons, firstMatching]
  split <;> simp_all

/-- A correlated reply is seen when there is a first one. -/
theorem correlatedReplySeen_iff {b64 : Base64.Codec} {input : Bytes} :
    (parseExchange b64 input correlationId).correlatedReplySeen = true ↔
      (firstMatching (observe b64 input) correlationId).isSome := by
  rw [parseExchange, firstMatching, List.find?_isSome, List.any_eq_true]

/-- A barrier is seen when there is a first one. -/
theorem barrierSeen_iff {b64 : Base64.Codec} {input : Bytes} :
    (parseExchange b64 input correlationId).barrierSeen = true ↔
      ((observe b64 input).find? ObservedEvent.isBarrier).isSome := by
  rw [parseExchange, List.find?_isSome, List.any_eq_true]

theorem find?_filter_isReply :
    (events.filter ObservedEvent.isReply).find? (ObservedEvent.hasCorrelation correlationId) =
      firstMatching events correlationId := by
  simp only [List.find?_filter, Bool.decide_and, Bool.decide_eq_true, firstMatching]

/-- What the assessment makes of a reply with the expected identifier. -/
theorem assess_of_matching {reply : ObservedEvent}
    (h : firstMatching events correlationId = some reply) :
    assess events correlationId =
      assessMatchingReply reply (events.find? ObservedEvent.isBarrier) correlationId := by
  rw [assess, find?_filter_isReply, h]

/-- What the assessment makes of a stream without such a reply. -/
theorem assess_of_no_matching (h : firstMatching events correlationId = none) :
    assess events correlationId =
      match (events.filter ObservedEvent.isReply).head? with
      | some unmatched =>
          assessUnmatchedReply unmatched (events.find? ObservedEvent.isBarrier) correlationId
      | none =>
          if (events.find? ObservedEvent.isBarrier).isSome then assessUnavailable
          else assessUnknown := by
  rw [assess, find?_filter_isReply, h]

/-- **When a stream is assessed conformant**: its first reply with the expected identifier reports
success and precedes the first barrier. -/
theorem conformant_iff :
    ((assess events correlationId).availability = .available ∧
      (assess events correlationId).conformance = .conformant) ↔
      ∃ reply barrier, firstMatching events correlationId = some reply ∧
        events.find? ObservedEvent.isBarrier = some barrier ∧
        reply.event.status = some "OK" ∧ reply.offset < barrier.offset := by
  cases hmatch : firstMatching events correlationId with
  | some reply =>
      rw [assess_of_matching hmatch, assessMatchingReply]
      cases hbar : events.find? ObservedEvent.isBarrier with
      | none => simp
      | some barrier =>
          by_cases hok : reply.event.status = some "OK" <;>
            by_cases hord : reply.offset < barrier.offset <;> simp [hok, hord]
  | none =>
      rw [assess_of_no_matching hmatch]
      refine iff_of_false ?_ (by simp)
      rintro ⟨-, hconf⟩
      cases hhead : (events.filter ObservedEvent.isReply).head? with
      | some unmatched => simp [hhead, assessUnmatchedReply] at hconf
      | none =>
          simp only [hhead] at hconf
          split at hconf <;> simp [assessUnavailable, assessUnknown] at hconf

/-- Only a stream with a barrier is assessed unavailable, and only one with a barrier and a reply
with the expected identifier is assessed conformant. -/
theorem barrier_of_verdict
    (h : (assess events correlationId).conformance = .conformant ∨
      (assess events correlationId).availability = .unavailable) :
    (events.find? ObservedEvent.isBarrier).isSome := by
  cases hbar : events.find? ObservedEvent.isBarrier with
  | some barrier => rfl
  | none =>
      exfalso
      cases hmatch : firstMatching events correlationId with
      | some reply =>
          rw [assess_of_matching hmatch, hbar] at h
          simp [assessMatchingReply] at h
      | none =>
          rw [assess_of_no_matching hmatch, hbar] at h
          cases hhead : (events.filter ObservedEvent.isReply).head? with
          | some unmatched => simp [hhead, assessUnmatchedReply] at h
          | none => simp [hhead, assessUnknown] at h

end Verdict

end Kgp

end TermInterop
