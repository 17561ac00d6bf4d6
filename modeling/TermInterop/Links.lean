/-
Links: from the URI that is printed for a file to the line that asks the consumer to open it.

A random endpoint is written in hexadecimal digits.  The URI of a file is printed for an endpoint,
and whoever clicks on it dispatches the intent behind it.  The dispatcher succeeds when the listener
has answered that the intent was forwarded; it may then print the receipt.

A run of a listener and of any number of clicks is a run of the listener with processes that make
none of its calls.  The line that the consumer has seen for a click is read with the JSON library,
as a consumer does, and gives back the path.

Main definitions:

* `TermInterop.EndpointId.generate` — an endpoint from random bytes;
* `TermInterop.Callback.intentUri`, `TermInterop.Callback.dispatchCallback` — the commands;
* `TermInterop.Callback.Clicks` — a run of one listener and any number of clicks;
* `TermInterop.Callback.AsksFor` — a line that asks the consumer for a file.

Main results:

* `TermInterop.endpoint_generation_exact` — every text of an endpoint comes from exactly one choice
  of random bytes;
* `TermInterop.Callback.intentUri_returns_iff`,
  `TermInterop.Callback.dispatchCallback_returns_iff` — what the commands have done when they
  succeed;
* `TermInterop.Callback.clicked_links_open` — **each click that succeeds has a line of its own**,
  which asks for the file of the link.
-/

import TermInterop.Handoff
import TermInterop.Contracts

set_option relaxedAutoImplicit false
set_option autoImplicit false

namespace TermInterop

open Sockets (Event Net SocketCall Stream World readsOf writesOf printedOf opensOf)

/-! ### Endpoints -/

/-- `{byte:02x}`. -/
def hexByte (b : UInt8) : List Char := [Nat.digitChar (b.toNat / 16), Nat.digitChar (b.toNat % 16)]

theorem hexByte_injective {a b : UInt8} (h : hexByte a = hexByte b) : a = b := by
  have hdigit : ∀ m < 16, ∀ n < 16, Nat.digitChar m = Nat.digitChar n → m = n := by decide
  have ha := a.toNat_lt
  have hb := b.toNat_lt
  obtain ⟨hhigh, htail⟩ := List.cons.inj h
  obtain ⟨hlow, -⟩ := List.cons.inj htail
  have hdiv := hdigit _ (by omega) _ (by omega) hhigh
  have hmod := hdigit _ (by omega) _ (by omega) hlow
  rw [← UInt8.toNat_inj]
  omega

/-- Two lowercase hexadecimal digits are those of a byte. -/
theorem exists_hexByte {c d : Char} (hc : c.toNat < 128 ∧ isLowerHex (Text.asciiByte c) = true)
    (hd : d.toNat < 128 ∧ isLowerHex (Text.asciiByte d) = true) : ∃ b, hexByte b = [c, d] := by
  have hdigit : ∀ c : Char, c.toNat < 128 → isLowerHex (Text.asciiByte c) = true →
      ∃ n < 16, Nat.digitChar n = c := by
    intro c hlt hhex
    have hall : ∀ n < 128, isLowerHex (Text.asciiByte (Char.ofNat n)) = true →
        ∃ m < 16, Nat.digitChar m = Char.ofNat n := by decide
    have hofNat := hall c.toNat hlt
    rw [Char.ofNat_toNat] at hofNat
    exact hofNat hhex
  obtain ⟨m, hm, rfl⟩ := hdigit c hc.1 hc.2
  obtain ⟨n, hn, rfl⟩ := hdigit d hd.1 hd.2
  refine ⟨UInt8.ofNat (m * 16 + n), ?_⟩
  have hsum : (UInt8.ofNat (m * 16 + n)).toNat = m * 16 + n := by
    rw [UInt8.toNat_ofNat']
    omega
  rw [hexByte, hsum]
  congr 3 <;> omega

theorem length_flatMap_hexByte (bytes : Bytes) :
    (bytes.flatMap hexByte).length = 2 * bytes.length := by
  induction bytes with
  | nil => rfl
  | cons b bytes ih =>
      rw [List.flatMap_cons, List.length_append, ih, List.length_cons]
      simp only [hexByte, List.length_cons, List.length_nil]
      omega

/-- The digits determine the bytes. -/
theorem flatMap_hexByte_injective {as bs : Bytes} (h : as.flatMap hexByte = bs.flatMap hexByte) :
    as = bs := by
  induction as generalizing bs with
  | nil =>
      cases bs with
      | nil => rfl
      | cons b bs => cases h
  | cons a as ih =>
      cases bs with
      | nil => cases h
      | cons b bs =>
          obtain ⟨hhead, htail⟩ := List.append_inj h rfl
          rw [hexByte_injective hhead, ih htail]

/-- Lowercase hexadecimal digits are those of some bytes, if their number is even. -/
theorem exists_flatMap_hexByte {n : ℕ} {cs : List Char} (hlength : cs.length = 2 * n)
    (h : ∀ c ∈ cs, c.toNat < 128 ∧ isLowerHex (Text.asciiByte c) = true) :
    ∃ bytes : Bytes, bytes.length = n ∧ bytes.flatMap hexByte = cs := by
  induction n generalizing cs with
  | zero => exact ⟨[], rfl, (List.length_eq_zero_iff.1 hlength).symm⟩
  | succ n ih =>
      match cs, hlength with
      | c :: d :: cs, hlength =>
          simp only [List.forall_mem_cons] at h
          obtain ⟨hc, hd, hrest⟩ := h
          have hlen : cs.length = 2 * n := by
            simp only [List.length_cons] at hlength
            omega
          obtain ⟨bytes, rfl, rfl⟩ := ih hlen hrest
          obtain ⟨b, hb⟩ := exists_hexByte hc hd
          exact ⟨b :: bytes, rfl, by rw [List.flatMap_cons, hb]; rfl⟩

/-- The digits of a byte are lowercase hexadecimal digits. -/
theorem forall_mem_hexByte (b : UInt8) :
    ∀ c ∈ hexByte b, c.toNat < 128 ∧ isLowerHex (Text.asciiByte c) = true := by
  have hdigit : ∀ n < 16, (Nat.digitChar n).toNat < 128 ∧
      isLowerHex (Text.asciiByte (Nat.digitChar n)) = true := by decide
  have hb := b.toNat_lt
  simp only [hexByte, List.forall_mem_cons, List.not_mem_nil, false_imp_iff, implies_true, and_true]
  exact ⟨hdigit _ (by omega), hdigit _ (by omega)⟩

/-- The texts of endpoints, by their characters. -/
theorem isEndpoint_iff {value : String} :
    IsEndpoint value ↔ value.toList.length = ENDPOINT_HEX_LEN ∧
      ∀ c ∈ value.toList, c.toNat < 128 ∧ isLowerHex (Text.asciiByte c) = true := by
  constructor
  · intro h
    have hdigits := EndpointId.forall_mem ⟨value, h⟩
    refine ⟨?_, hdigits⟩
    rw [← h.1, Text.length_asBytes_of_ascii fun c hc => (hdigits c hc).1]
  · rintro ⟨hlength, hdigits⟩
    have hascii : ∀ c ∈ value.toList, c.toNat < 128 := fun c hc => (hdigits c hc).1
    refine ⟨by rw [Text.length_asBytes_of_ascii hascii, hlength], ?_⟩
    rw [Text.asBytes, Text.utf8_of_ascii hascii, List.all_map, List.all_eq_true]
    exact fun c hc => (hdigits c hc).2

namespace EndpointId

/-- Generate an unguessable 128-bit local endpoint identity, from the bytes of the random source. -/
def generate (bytes : {bytes : Bytes // bytes.length = ENDPOINT_HEX_BYTES}) : EndpointId where
  asStr := String.ofList (bytes.val.flatMap hexByte)
  canonical := by
    refine isEndpoint_iff.2 ?_
    rw [String.toList_ofList, length_flatMap_hexByte, bytes.property]
    refine ⟨rfl, fun c hc => ?_⟩
    obtain ⟨b, -, hb⟩ := List.mem_flatMap.1 hc
    exact forall_mem_hexByte b c hb

/-- **Every endpoint comes from exactly one choice of bytes.** -/
theorem generate_bijective : Function.Bijective generate := by
  constructor
  · rintro ⟨as, has⟩ ⟨bs, hbs⟩ h
    have htext := congrArg (fun endpoint => endpoint.asStr.toList) h
    simp only [generate, String.toList_ofList] at htext
    exact Subtype.ext (flatMap_hexByte_injective htext)
  · intro endpoint
    obtain ⟨hlength, hdigits⟩ := isEndpoint_iff.1 endpoint.canonical
    obtain ⟨bytes, hbytes, htext⟩ := @exists_flatMap_hexByte ENDPOINT_HEX_BYTES _
      (hlength.trans (Nat.mul_comm _ _)) hdigits
    refine ⟨⟨bytes, hbytes⟩, EndpointId.ext ?_⟩
    calc (generate ⟨bytes, hbytes⟩).asStr = String.ofList (bytes.flatMap hexByte) := rfl
      _ = endpoint.asStr := by rw [htext, String.ofList_toList]

end EndpointId

/-- **The generation of endpoints loses no entropy**: the texts that are accepted as endpoints are
those that are generated, each from exactly one choice of random bytes. -/
theorem endpoint_generation_exact (text : String) :
    (∃ endpoint, EndpointId.parse text = .ok endpoint) ↔
      ∃! bytes, (EndpointId.generate bytes).asStr = text := by
  constructor
  · rintro ⟨endpoint, hparse⟩
    obtain rfl := EndpointId.parse_eq_ok_iff.1 hparse
    obtain ⟨bytes, rfl⟩ := EndpointId.generate_bijective.surjective endpoint
    refine ⟨bytes, rfl, fun other hother => ?_⟩
    exact EndpointId.generate_bijective.injective (EndpointId.ext hother)
  · rintro ⟨bytes, hbytes, -⟩
    exact ⟨EndpointId.generate bytes, EndpointId.parse_eq_ok_iff.2 hbytes⟩

namespace Callback

/-! ### The commands -/

/-- Why a command about links fails. -/
inductive LinkFailure
  | app (error : AppError)
  | zeroIntentTimeout
  | intentRejected (detail : String)

/-- A failure of the intents. -/
def LinkFailure.intent (error : IntentError) : LinkFailure := .app (.intent error)

/-- The standard output, of which only I/O fails. -/
def printed (bytes : Bytes) : Net LinkFailure Unit :=
  (writeOutput bytes).mapError fun message => .app (.io message)

/-- The command `intent endpoint`. -/
def intentEndpoint (bytes : {bytes : Bytes // bytes.length = ENDPOINT_HEX_BYTES}) :
    Net LinkFailure Unit :=
  printed (Text.asBytes ((EndpointId.generate bytes).asStr ++ "\n"))

/-- What is clicked on, and how. -/
structure Click where
  xdgRuntimeDir : Option PathBuf
  uri : String
  timeoutMs : ℕ
  quiet : Bool

section Commands

variable (b64 : Base64.CanonicalCodec) (json : CallbackJson)

/-- The command `intent uri`. -/
def intentUri (endpoint : String) (path : PathBuf) : Net LinkFailure Unit := do
  let endpoint ← Prog.ofExcept ((EndpointId.parse endpoint).mapError .intent)
  let intent ← Prog.ofExcept ((OpenIntentV1.fromPath b64 endpoint path).mapError .intent)
  let uri ← Prog.ofExcept ((intent.uri b64).mapError .intent)
  printed (Text.asBytes (uri ++ "\n"))

/-- The command `intent dispatch`. -/
def dispatchCallback (click : Click) : Net LinkFailure Unit := do
  Prog.ensure (click.timeoutMs ≠ 0) .zeroIntentTimeout
  let intent ← Prog.ofExcept ((OpenIntentV1.parseUri b64 click.uri).mapError .intent)
  let root ← Prog.ofExcept ((runtimeRoot click.xdgRuntimeDir).mapError .intent)
  let receipt ← (dispatch json root intent (fromMillis click.timeoutMs)).mapError .intent
  Prog.ofExcept (receipt.validate.mapError .intent)
  Prog.ensure (receipt.state = .forwarded) (.intentRejected receipt.detail)
  if click.quiet then .ret () else printed (serializedJson receipt.toVec)

end Commands

/-! ### What a command has done -/

section Done

variable {b64 : Base64.CanonicalCodec} {json : CallbackJson} {events : List Event} {u : Unit}

/-- The calls that print a text. -/
def printCalls (bytes : Bytes) : List Event := [⟨.print bytes, .ok ()⟩, ⟨.flush, .ok ()⟩]

theorem printed_returns_iff {bytes : Bytes} :
    (printed bytes).Returns events u ↔ events = printCalls bytes := by
  rw [printed, Prog.mapError_returns_iff]
  constructor
  · intro h
    obtain ⟨r, hhanding, hr⟩ := writeOutput_reaches h
    obtain rfl := hr (.ok ()) rfl
    cases hhanding with
    | flushed => rfl
  · rintro rfl
    exact writeOutput_returns_once bytes

theorem printedOf_printCalls (bytes : Bytes) : printedOf (printCalls bytes) = bytes := by
  simp [printCalls, Sockets.printedOf, Sockets.printedBy, acceptedBytes]

theorem mapError_eq_ok_iff {ε δ α : Type} {f : ε → δ} {x : Except ε α} {a : α} :
    x.mapError f = .ok a ↔ x = .ok a := by
  cases x with
  | ok b => simp [Except.mapError]
  | error error => simp [Except.mapError]

/-- **What is printed for a path**: its URI. -/
theorem intentUri_returns_iff {endpoint : String} {path : PathBuf} :
    (intentUri b64 endpoint path).Returns events u ↔
      ∃ parsed : EndpointId, parsed.asStr = endpoint ∧ OpenIntentV1.IsTarget path ∧
        events = printCalls (Text.asBytes (OpenIntentV1.targetUri b64 parsed path ++ "\n")) := by
  simp only [intentUri, Prog.ofExcept_bind_returns_iff, mapError_eq_ok_iff, printed_returns_iff,
    EndpointId.parse_eq_ok_iff, OpenIntentV1.fromPath_eq_ok_iff]
  refine exists_congr fun parsed => and_congr_right fun _ => ?_
  constructor
  · rintro ⟨intent, ⟨htarget, rfl⟩, uri, huri, rfl⟩
    rw [OpenIntentV1.uri_ofTarget b64 htarget] at huri
    exact ⟨htarget, by rw [Except.ok.inj huri]⟩
  · rintro ⟨htarget, rfl⟩
    exact ⟨_, ⟨htarget, rfl⟩, _, OpenIntentV1.uri_ofTarget b64 htarget, rfl⟩

/-- **What a dispatcher has done that succeeds.** -/
theorem dispatchCallback_returns_iff {click : Click} :
    (dispatchCallback b64 json click).Returns events u ↔ click.timeoutMs ≠ 0 ∧
      ∃ intent root receipt calls, OpenIntentV1.parseUri b64 click.uri = .ok intent ∧
        runtimeRoot click.xdgRuntimeDir = .ok root ∧
        (Request.program json ⟨root, intent, fromMillis click.timeoutMs⟩).Returns calls receipt ∧
        receipt.validate = .ok () ∧ receipt.state = .forwarded ∧
        events =
          calls ++ if click.quiet then [] else printCalls (serializedJson receipt.toVec) := by
  have hlast : ∀ {receipt : IntentReceiptV1} {after : List Event},
      (if click.quiet then .ret () else printed (serializedJson receipt.toVec)).Returns after u ↔
        after = if click.quiet then [] else printCalls (serializedJson receipt.toVec) := by
    intro receipt after
    cases click.quiet with
    | true => exact Prog.ret_returns_iff.trans (and_iff_left rfl)
    | false => exact printed_returns_iff
  rw [dispatchCallback, Prog.ensure_bind_returns_iff, decide_eq_true_iff]
  refine and_congr_right fun _ => ?_
  constructor
  · intro hparsed
    obtain ⟨intent, hintent, hrooted⟩ := Prog.ofExcept_bind_returns_iff.1 hparsed
    obtain ⟨root, hroot, hdispatched⟩ := Prog.ofExcept_bind_returns_iff.1 hrooted
    obtain ⟨calls, receipt, after, hcalls, hchecked, hevents⟩ :=
      Prog.bind_returns_iff.1 hdispatched
    obtain ⟨_, hvalid, hanswered⟩ := Prog.ofExcept_bind_returns_iff.1 hchecked
    obtain ⟨hstate, hafter⟩ := Prog.ensure_bind_returns_iff.1 hanswered
    rw [hlast.1 hafter] at hevents
    exact ⟨intent, root, receipt, calls, mapError_eq_ok_iff.1 hintent, mapError_eq_ok_iff.1 hroot,
      Prog.mapError_returns_iff.1 hcalls, mapError_eq_ok_iff.1 hvalid, of_decide_eq_true hstate,
      hevents⟩
  · rintro ⟨intent, root, receipt, calls, hintent, hroot, hcalls, hvalid, hstate, hevents⟩
    refine Prog.ofExcept_bind_returns_iff.2 ⟨intent, mapError_eq_ok_iff.2 hintent, ?_⟩
    refine Prog.ofExcept_bind_returns_iff.2 ⟨root, mapError_eq_ok_iff.2 hroot, ?_⟩
    refine Prog.bind_returns_iff.2 ⟨calls, receipt, _, Prog.mapError_returns_iff.2 hcalls, ?_,
      hevents⟩
    refine Prog.ofExcept_bind_returns_iff.2 ⟨(), mapError_eq_ok_iff.2 hvalid, ?_⟩
    exact Prog.ensure_bind_returns_iff.2 ⟨decide_eq_true hstate, hlast.2 rfl⟩

/-- What a dispatcher prints that succeeds is a valid receipt. -/
theorem printedOf_dispatchCallback {click : Click}
    (h : (dispatchCallback b64 json click).Returns events u) (hquiet : click.quiet = false) :
    ∃ receipt : IntentReceiptV1, receipt.validate = .ok () ∧
      printedOf events = serializedJson receipt.toVec := by
  obtain ⟨-, intent, root, receipt, calls, -, -, hcalls, hvalid, -, rfl⟩ :=
    dispatchCallback_returns_iff.1 h
  refine ⟨receipt, hvalid, ?_⟩
  rw [Sockets.printedOf_append, printedOf_dispatch hcalls, hquiet, List.nil_append]
  exact printedOf_printCalls _

/-- The command makes none of the calls of a listener. -/
theorem avoids_dispatchCallback (click : Click) :
    Avoids ListenerCall (dispatchCallback b64 json click) := by
  refine .bind ⟨fun _ => Prog.Always.ensure⟩ fun _ => .bind (avoids_ofExcept _) fun intent =>
    .bind (avoids_ofExcept _) fun root => ?_
  refine .bind (.mapError _ (avoids_dispatch root intent _)) fun receipt =>
    .bind (avoids_ofExcept _) fun _ => .bind ⟨fun _ => Prog.Always.ensure⟩ fun _ => ?_
  split_ifs
  · exact ⟨fun _ => trivial⟩
  · exact .mapError _ (.bind (avoids_call (.print _) id) fun _ => .bind (avoids_ofExcept _) fun _ =>
      .bind (avoids_call .flush id) fun _ => avoids_ofExcept _)

end Done

/-! ### Clicks -/

section Clicks

variable (b64 : Base64.CanonicalCodec) (json : CallbackJson) (xdgRuntimeDir : Option PathBuf)
  (endpoint : EndpointId) (once : Bool) (fuel : ℕ) {ι : Type} [DecidableEq ι]
  (clicks : ι → Click)

/-- **A run of one listener and any number of clicks**, in which each has been obeying its program;
everybody else does what they like. -/
structure Clicks (labels : List (Party ι × Event)) (w : World (Party ι)) : Prop where
  run : (Sockets.system (Party ι)).Run (World.init (Party ι)) labels w
  listener : ∃ left, (listenForIntents b64 json xdgRuntimeDir endpoint.asStr once fuel).Reaches
    (Histories.project .listener labels) left
  dispatchers : ∀ d, ∃ left, (dispatchCallback b64 json (clicks d)).Reaches
    (Histories.project (.dispatcher d) labels) left

/-- A click has succeeded. -/
def Succeeds (labels : List (Party ι × Event)) (d : ι) : Prop :=
  (dispatchCallback b64 json (clicks d)).Returns (Histories.project (.dispatcher d) labels) ()

variable {b64 json xdgRuntimeDir endpoint once fuel clicks}
  {labels : List (Party ι × Event)} {w : World (Party ι)}

theorem Clicks.listening (h : Clicks b64 json xdgRuntimeDir endpoint once fuel clicks labels w) :
    Listening b64 json xdgRuntimeDir endpoint once fuel labels w where
  run := h.run
  listener := h.listener
  others d := by
    obtain ⟨left, hleft⟩ := h.dispatchers d
    exact (avoids_dispatchCallback (clicks d)).forall_mem hleft

/-- **What a click that succeeds has opened**: the consumer has seen the line of its intent, which
was printed for a connection that this click holds. -/
theorem Clicks.seen_of_succeeds
    (h : Clicks b64 json xdgRuntimeDir endpoint once fuel clicks labels w) {d : ι}
    (hd : Succeeds b64 json clicks labels d) :
    ∃ path c, OpenIntentV1.IsTarget path ∧
      (clicks d).uri = OpenIntentV1.targetUri b64 endpoint path ∧
      w.holder (Sockets.clientEnd c) = some (.dispatcher d) ∧
      SeenFor labels w c (serializedJson (OpenIntentV1.ofTarget b64 endpoint path).toVec) := by
  obtain ⟨-, intent, root, receipt, calls, hparse, -, hcalls, -, hstate, hproject⟩ :=
    dispatchCallback_returns_iff.1 hd
  obtain ⟨parsed, path, htarget, huri, rfl⟩ := (OpenIntentV1.parseUri_eq_ok_iff b64).1 hparse
  obtain ⟨socket, c, hconnect, hown, hreceived⟩ := h.listening.sent_dispatcher hcalls hproject
    (fun u => by cases (clicks d).quiet <;> rfl) (fun u => by cases (clicks d).quiet <;> rfl)
  obtain ⟨intent, hsent, ⟨hendpoint, -⟩, hseen⟩ := h.listening.seen_of_received hreceived hstate
  rw [hown intent hsent] at hendpoint hseen
  obtain rfl : parsed = endpoint := hendpoint
  have hopen : Sockets.clientEnd c ∈ opensOf (Histories.project (.dispatcher d) labels) :=
    List.mem_filterMap.2 ⟨_, hconnect, rfl⟩
  exact ⟨path, c, htarget, huri, (Sockets.Handles.of_run h.run).opened _ _ hopen, hseen⟩

end Clicks

/-! ### What the consumer reads -/

section Consumer

variable (json : JsonLibrary) (b64 : Base64.Codec) (urlSafe : Base64.CanonicalCodec)

/-- **A line that asks for a file**: it is read as an intent for the endpoint that carries the path,
and passes the validation of contracts. -/
structure AsksFor (endpoint : EndpointId) (path : PathBuf) (line : Bytes) : Prop where
  read : ∃ intent, (json.fromSlice line).bind OpenIntentV1.deserialize = some intent ∧
    intent.endpoint = endpoint ∧ intent.path urlSafe = .ok path
  validated : ∃ verdict, validateContract json b64 urlSafe line = .ok verdict

/-- What is printed with the library is what is written for the record. -/
theorem serializedJson_toVec (intent : OpenIntentV1) :
    serializedJson intent.toVec = json.serializedJson intent.serialize false := by
  rw [JsonLibrary.serializedJson, if_neg (by simp), OpenIntentV1.write_serialize]
  rfl

theorem serializedJson_receipt (receipt : IntentReceiptV1) :
    serializedJson receipt.toVec = json.serializedJson receipt.serialize false := by
  rw [JsonLibrary.serializedJson, if_neg (by simp), IntentReceiptV1.write_serialize]
  rfl

/-- The line of an intent asks for its file. -/
theorem asksFor_line {endpoint : EndpointId} {path : PathBuf} (h : OpenIntentV1.IsTarget path) :
    AsksFor json b64 urlSafe endpoint path
      (serializedJson (OpenIntentV1.ofTarget urlSafe endpoint path).toVec) := by
  have hpath := @OpenIntentV1.path_ofTarget urlSafe endpoint path h
  have hportable := OpenIntentV1.validatePortable_of_path urlSafe hpath
  have hlength := OpenIntentV1.length_toVec_le hportable
  have hline := serializedJson_toVec json (OpenIntentV1.ofTarget urlSafe endpoint path)
  have hbound : (json.serializedJson (OpenIntentV1.ofTarget urlSafe endpoint path).serialize
      false).length ≤ MAX_CONTRACT_DOCUMENT_BYTES := by
    have hmax : MAX_FRAME_BYTES + 1 ≤ MAX_CONTRACT_DOCUMENT_BYTES := by decide
    rw [← hline, serializedJson, List.length_append, List.length_singleton]
    omega
  rw [hline]
  refine ⟨⟨_, ?_, rfl, hpath⟩, _,
    (@validateContract_serialize_iff json b64 urlSafe (.openIntent _) false _).2
      ⟨hbound, Checks.mapErr_eq_ok_iff.2 hportable, rfl⟩⟩
  have hwithin := OpenIntentV1.roundTrip.within_of_le (by decide : 2 ≤ 127)
    (OpenIntentV1.ofTarget urlSafe endpoint path)
  rw [json.fromSlice_serializedJson hwithin]
  exact OpenIntentV1.roundTrip.read_write _

/-- The document of a valid receipt passes the validation of contracts. -/
theorem receipt_validated {receipt : IntentReceiptV1} (h : receipt.validate = .ok ()) :
    ∃ verdict, validateContract json b64 urlSafe (serializedJson receipt.toVec) = .ok verdict := by
  obtain ⟨hschema, -, hdetail⟩ := IntentReceiptV1.validate_eq_ok_iff.1 h
  have hline := serializedJson_receipt json receipt
  have hbound : (json.serializedJson receipt.serialize false).length ≤
      MAX_CONTRACT_DOCUMENT_BYTES := by
    have hfixed : Json.escapedLength receipt.schema = 38 := by
      rw [hschema]
      rfl
    have hstate : Json.escapedLength receipt.state.name ≤ 9 := by
      cases receipt.state <;> decide
    -- every byte of the detail is escaped by six at the most
    have hescaped := Json.escapedLength_le receipt.detail
    rw [← hline, serializedJson, List.length_append, List.length_singleton, receipt.length_toVec,
      hfixed]
    rw [MAX_FRAME_BYTES] at hdetail
    have hmax : MAX_CONTRACT_DOCUMENT_BYTES = 1048576 := rfl
    omega
  rw [hline]
  exact ⟨_, (@validateContract_serialize_iff json b64 urlSafe (.intentReceipt receipt) false _).2
    ⟨hbound, Checks.mapErr_eq_ok_iff.2 h, rfl⟩⟩

end Consumer

/-- Texts with the same bytes on their lines are the same. -/
theorem eq_of_asBytes_line {s t : String}
    (h : Text.asBytes (s ++ "\n") = Text.asBytes (t ++ "\n")) : s = t := by
  have hlines : s ++ "\n" = t ++ "\n" :=
    Option.some.inj (by rw [← Json.fromUtf8_asBytes, h, Json.fromUtf8_asBytes])
  have hchars := congrArg String.toList hlines
  rw [String.toList_append, String.toList_append] at hchars
  exact String.toList_inj.1 (List.append_cancel_right hchars)

/-- The URI that is printed for a path determines the endpoint and the path. -/
theorem targetUri_injective {b64 : Base64.CanonicalCodec} {e₁ e₂ : EndpointId} {p₁ p₂ : PathBuf}
    (h₁ : OpenIntentV1.IsTarget p₁) (h₂ : OpenIntentV1.IsTarget p₂)
    (h : OpenIntentV1.targetUri b64 e₁ p₁ = OpenIntentV1.targetUri b64 e₂ p₂) :
    e₁ = e₂ ∧ p₁ = p₂ := by
  have hparse₁ := (OpenIntentV1.parseUri_eq_ok_iff b64).2 ⟨e₁, p₁, h₁, rfl, rfl⟩
  have hparse₂ := (OpenIntentV1.parseUri_eq_ok_iff b64).2 ⟨e₂, p₂, h₂, h, rfl⟩
  have hintent := Except.ok.inj (hparse₁.symm.trans hparse₂)
  refine ⟨congrArg OpenIntentV1.endpoint hintent, ?_⟩
  have hpath := @OpenIntentV1.path_ofTarget b64 e₁ p₁ h₁
  rw [hintent, OpenIntentV1.path_ofTarget b64 h₂] at hpath
  exact (Except.ok.inj hpath).symm

/-- **Each click that succeeds has a line of its own.**  At any moment of a run of one listener with
any number of clicks and whoever else connects: every click whose dispatcher has succeeded has a
line that the consumer has seen, no two have the same one, and the line asks for a file.  The file
is the one that the URI was printed for, and the URI was printed for the endpoint of this listener.
Unless the dispatcher is quiet, what it prints is a valid receipt. -/
theorem clicked_links_open (json : JsonLibrary) (b64 : Base64.Codec)
    (urlSafe : Base64.CanonicalCodec) (xdgRuntimeDir : Option PathBuf) (endpoint : EndpointId)
    (once : Bool) (fuel : ℕ) {ι : Type} [DecidableEq ι] (clicks : ι → Click)
    (labels : List (Party ι × Event)) (w : World (Party ι))
    (h : Clicks urlSafe json.callbackJson xdgRuntimeDir endpoint once fuel clicks labels w) :
    ∃ position : ι → ℕ,
      (∀ d, Succeeds urlSafe json.callbackJson clicks labels d → ∃ path line,
        (seenLines w)[position d + 1]? = some line ∧
        AsksFor json b64 urlSafe endpoint path line ∧
        (∀ text target events, (intentUri urlSafe text target).Returns events () →
          printedOf events = Text.asBytes ((clicks d).uri ++ "\n") →
            text = endpoint.asStr ∧ target = path) ∧
        ((clicks d).quiet = false → ∃ verdict, validateContract json b64 urlSafe
          (printedOf (Histories.project (.dispatcher d) labels)) = .ok verdict)) ∧
      ∀ d d', Succeeds urlSafe json.callbackJson clicks labels d →
        Succeeds urlSafe json.callbackJson clicks labels d' →
          position d = position d' → d = d' := by
  have hopened : ∀ d, ∃ k, Succeeds urlSafe json.callbackJson clicks labels d → ∃ path c,
      OpenIntentV1.IsTarget path ∧ (clicks d).uri = OpenIntentV1.targetUri urlSafe endpoint path ∧
      w.holder (Sockets.clientEnd c) = some (.dispatcher d) ∧
      (printedLines labels)[k]? = some (Sockets.serverEnd c,
        serializedJson (OpenIntentV1.ofTarget urlSafe endpoint path).toVec) ∧
      (seenLines w)[k + 1]? =
        some (serializedJson (OpenIntentV1.ofTarget urlSafe endpoint path).toVec) := by
    intro d
    by_cases hd : Succeeds urlSafe json.callbackJson clicks labels d
    · obtain ⟨path, c, htarget, huri, hholder, k, hline, hseen⟩ := h.seen_of_succeeds hd
      exact ⟨k, fun _ => ⟨path, c, htarget, huri, hholder, hline, hseen⟩⟩
    · exact ⟨0, fun hsucceeds => absurd hsucceeds hd⟩
  choose position hposition using hopened
  refine ⟨position, fun d hd => ?_, fun d d' hd hd' heq => ?_⟩
  · obtain ⟨path, c, htarget, huri, -, -, hseen⟩ := hposition d hd
    refine ⟨path, _, hseen, asksFor_line json b64 urlSafe htarget, ?_, fun hquiet => ?_⟩
    · intro text target events hreturns hprinted
      obtain ⟨parsed, rfl, hother, rfl⟩ := intentUri_returns_iff.1 hreturns
      rw [printedOf_printCalls, huri] at hprinted
      obtain ⟨rfl, rfl⟩ := targetUri_injective hother htarget (eq_of_asBytes_line hprinted)
      exact ⟨rfl, rfl⟩
    · obtain ⟨receipt, hvalid, hprints⟩ := printedOf_dispatchCallback hd hquiet
      rw [hprints]
      exact receipt_validated json b64 urlSafe hvalid
  · -- the line was printed for one connection, which one click holds
    obtain ⟨path, c, -, -, hholder, hline, -⟩ := hposition d hd
    obtain ⟨path', c', -, -, hholder', hline', -⟩ := hposition d' hd'
    rw [heq, hline'] at hline
    obtain ⟨hstream, -⟩ := Prod.mk.inj (Option.some.inj hline)
    obtain rfl : c' = c := congrArg Stream.link hstream
    rw [hholder'] at hholder
    exact (Party.dispatcher.inj (Option.some.inj hholder)).symm

/-- A click on the link of `/tmp/a`. -/
def sampleClick : Click where
  xdgRuntimeDir := some (Text.asBytes "/run")
  uri := OpenIntentV1.targetUri Base64.urlSafeNoPad sampleEndpoint (Text.asBytes "/tmp/a")
  timeoutMs := 5000
  quiet := true

/-- A click on the link of `/tmp/a` succeeds, and the consumer has seen a line that asks for it. -/
theorem clicked_links_open_once :
    ∃ labels w k line, Clicks Base64.urlSafeNoPad parsedJson.callbackJson
        (some (Text.asBytes "/run")) sampleEndpoint true 1 (fun _ : Unit => sampleClick) labels w ∧
      Succeeds Base64.urlSafeNoPad parsedJson.callbackJson (fun _ => sampleClick) labels () ∧
      (seenLines w)[k + 1]? = some line ∧
      AsksFor parsedJson Base64.standard Base64.urlSafeNoPad sampleEndpoint
        (Text.asBytes "/tmp/a") line := by
  have htarget : OpenIntentV1.IsTarget (Text.asBytes "/tmp/a") :=
    ⟨by decide, by decide, by decide, by decide⟩
  have hrequest : IsRequest Base64.urlSafeNoPad sampleEndpoint
      (OpenIntentV1.ofTarget Base64.urlSafeNoPad sampleEndpoint (Text.asBytes "/tmp/a")) :=
    ⟨rfl, _, OpenIntentV1.path_ofTarget _ htarget⟩
  obtain ⟨path, hpath⟩ : ∃ path, socketPath (Text.asBytes "/run/terminal-interop/intent-v1")
      sampleEndpoint = .ok path := ⟨_, rfl⟩
  obtain ⟨w, hexchange, hreturns⟩ := exists_delivery (fromMillis sampleClick.timeoutMs)
    Base64.urlSafeNoPad parsedJson.callbackJson (some (Text.asBytes "/run")) 0 rfl hpath hrequest
  have hvalid : (IntentReceiptV1.forwarded sampleEndpoint).validate = .ok () := by decide
  have hparse : OpenIntentV1.parseUri Base64.urlSafeNoPad sampleClick.uri = .ok
      (OpenIntentV1.ofTarget Base64.urlSafeNoPad sampleEndpoint (Text.asBytes "/tmp/a")) :=
    (OpenIntentV1.parseUri_eq_ok_iff _).2 ⟨_, _, htarget, rfl, rfl⟩
  have hsucceeds := (@dispatchCallback_returns_iff Base64.urlSafeNoPad parsedJson.callbackJson _ ()
    sampleClick).2 ⟨by decide, _, _, _, _, hparse, rfl, hreturns, hvalid, rfl,
      (List.append_nil _).symm⟩
  have hclicks : Clicks Base64.urlSafeNoPad parsedJson.callbackJson (some (Text.asBytes "/run"))
      sampleEndpoint true 1 (fun _ : Unit => sampleClick) _ w :=
    ⟨hexchange.run, hexchange.listener, fun _ => ⟨_, hsucceeds⟩⟩
  obtain ⟨position, hopened, -⟩ := clicked_links_open parsedJson Base64.standard
    Base64.urlSafeNoPad _ _ _ _ _ _ w hclicks
  obtain ⟨target, line, hseen, hasks, hlinked, -⟩ := hopened () hsucceeds
  obtain ⟨-, rfl⟩ := hlinked sampleEndpoint.asStr (Text.asBytes "/tmp/a") _
    (intentUri_returns_iff.2 ⟨sampleEndpoint, rfl, htarget, rfl⟩) (printedOf_printCalls _)
  exact ⟨_, w, position (), line, hclicks, hsucceeds, hseen, hasks⟩

end Callback

end TermInterop
