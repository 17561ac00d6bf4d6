/-
The local transport of callback intents.

A consumer binds the socket of its endpoint and serves one connection after the other: it reads an
intent, prints it on one line of its standard output, and answers with a receipt.  A dispatcher
connects, sends one intent and waits for the receipt.  Intents and receipts travel in frames, four
bytes for the length and then the payload.

The programs below make the calls of the source, one at a time, with the drops that close a
connection or remove the socket.  The JSON that is written is given; the parser of the JSON library
is a parameter, of which only is known that it reads back what was written.

Main definitions:

* `TermInterop.IntentReceiptV1`, `TermInterop.OpenIntentV1.toVec`,
  `TermInterop.IntentReceiptV1.toVec` — receipts, and the JSON of both documents;
* `TermInterop.Callback.frame`, `TermInterop.Callback.writeFrame`, `TermInterop.Callback.readFrame`
  — frames;
* `TermInterop.Callback.accept`, `TermInterop.Callback.respond`, `TermInterop.Callback.dispatch`,
  `TermInterop.Callback.listenForIntents` — the programs of both parties.

Main results:

* `TermInterop.Callback.frame_append_inj` — frames delimit themselves;
* `TermInterop.Callback.writeFrame_returns`, `TermInterop.Callback.readFrame_returns` — what is sent
  and read with a frame.
-/

import TermInterop.Json
import TermInterop.Sockets

set_option relaxedAutoImplicit false
set_option autoImplicit false

namespace TermInterop

open Sockets (Event Net SocketCall Stream FileKind readsOf writesOf readBy writtenBy)

/-! ### Documents -/

def INTENT_RECEIPT_SCHEMA_V1 : String := "urn:terminal-interop:intent-receipt:v1"

def MAX_FRAME_BYTES : ℕ := 64 * 1024

def SOCKET_PATH_SOFT_LIMIT : ℕ := 100

theorem EndpointId.ext {a b : EndpointId} (h : a.asStr = b.asStr) : a = b := by
  obtain ⟨a, ha⟩ := a
  obtain ⟨b, hb⟩ := b
  obtain rfl : a = b := h
  rfl

instance : DecidableEq EndpointId := fun a b =>
  decidable_of_iff (a.asStr = b.asStr) ⟨EndpointId.ext, congrArg EndpointId.asStr⟩

inductive IntentDeliveryState
  | forwarded
  | rejected
  deriving DecidableEq

/-- What a listener answers. -/
structure IntentReceiptV1 where
  schema : String
  endpoint : EndpointId
  state : IntentDeliveryState
  detail : String

namespace IntentReceiptV1

def forwarded (endpoint : EndpointId) : IntentReceiptV1 where
  schema := INTENT_RECEIPT_SCHEMA_V1
  endpoint := endpoint
  state := .forwarded
  detail := "intent was forwarded to the bound local consumer"

def rejected (endpoint : EndpointId) (detail : String) : IntentReceiptV1 where
  schema := INTENT_RECEIPT_SCHEMA_V1
  endpoint := endpoint
  state := .rejected
  detail := detail

/-- Validate a receipt received outside the bounded local transport. -/
def validate (receipt : IntentReceiptV1) : Except IntentError Unit := do
  Checks.ensure (receipt.schema == INTENT_RECEIPT_SCHEMA_V1) (.unsupportedSchema receipt.schema)
  Checks.ensure (!((Text.asBytes receipt.detail).isEmpty ||
    (Text.asBytes receipt.detail).length > MAX_FRAME_BYTES)) .invalidReceiptDetail

end IntentReceiptV1

/-! ### Their JSON -/

def IntentAction.name : IntentAction → String
  | openArtifact => "open_artifact"

def PathEncoding.name : PathEncoding → String
  | unixBytesBase64urlV1 => "unix_bytes_base64url_v1"
  | utf8Base64urlV1 => "utf8_base64url_v1"

def IntentDeliveryState.name : IntentDeliveryState → String
  | forwarded => "forwarded"
  | rejected => "rejected"

/-- `serde_json::to_vec` on an encoded path. -/
def EncodedPathV1.toVec (target : EncodedPathV1) : Bytes :=
  Json.object
    [("encoding", Json.string target.encoding.name), ("value", Json.string target.value)]

/-- `serde_json::to_vec` on an intent. -/
def OpenIntentV1.toVec (intent : OpenIntentV1) : Bytes :=
  Json.object
    [("schema", Json.string intent.schema), ("endpoint", Json.string intent.endpoint.asStr),
      ("action", Json.string intent.action.name), ("target", intent.target.toVec)]

/-- `serde_json::to_vec` on a receipt. -/
def IntentReceiptV1.toVec (receipt : IntentReceiptV1) : Bytes :=
  Json.object
    [("schema", Json.string receipt.schema), ("endpoint", Json.string receipt.endpoint.asStr),
      ("state", Json.string receipt.state.name), ("detail", Json.string receipt.detail)]

/-- `serde_json::to_vec` on a ready record. -/
def IntentReadyV1.toVec (ready : IntentReadyV1) : Bytes :=
  Json.object
    [("schema", Json.string ready.schema), ("endpoint", Json.string ready.endpoint.asStr),
      ("uri_prefix", Json.string ready.uriPrefix)]

/-- Every document is written on one line. -/
theorem OpenIntentV1.newline_notMem_toVec (intent : OpenIntentV1) :
    Json.newline ∉ intent.toVec := by
  refine Json.newline_notMem_object ?_
  simp only [List.forall_mem_cons, Json.newline_notMem_string, not_false_eq_true, true_and,
    List.not_mem_nil, false_imp_iff, implies_true, and_true]
  refine Json.newline_notMem_object ?_
  simp [Json.newline_notMem_string]

theorem IntentReadyV1.newline_notMem_toVec (ready : IntentReadyV1) :
    Json.newline ∉ ready.toVec := by
  refine Json.newline_notMem_object ?_
  simp [Json.newline_notMem_string]

/-- `serde_json::from_slice` at the two types that travel: it reads back what was written. -/
structure CallbackJson where
  intent : Bytes → Option OpenIntentV1
  receipt : Bytes → Option IntentReceiptV1
  intent_toVec : ∀ i, intent i.toVec = some i
  receipt_toVec : ∀ r, receipt r.toVec = some r

/-- `serialized_json`, compact: the document and the end of its line. -/
def serializedJson (document : Bytes) : Bytes := document ++ [Json.newline]

namespace Callback

/-! ### Frames -/

/-- A `u32` as four bytes, the most significant first. -/
def toBeBytes (n : ℕ) : Bytes :=
  [UInt8.ofNat (n / 2 ^ 24), UInt8.ofNat (n / 2 ^ 16), UInt8.ofNat (n / 2 ^ 8), UInt8.ofNat n]

/-- The number behind some bytes, the most significant first. -/
def fromBeBytes (bytes : Bytes) : ℕ := bytes.foldl (fun n b => n * 256 + b.toNat) 0

/-- A frame: the length of the payload, and the payload. -/
def frame (payload : Bytes) : Bytes := toBeBytes payload.length ++ payload

theorem fromBeBytes_toBeBytes {n : ℕ} (h : n < 2 ^ 32) : fromBeBytes (toBeBytes n) = n := by
  simp only [fromBeBytes, toBeBytes, List.foldl_cons, List.foldl_nil, UInt8.toNat_ofNat']
  omega

/-- A number below `2 ^ 32` is determined by its four bytes. -/
theorem toBeBytes_fromBeBytes {bytes : Bytes} (h : bytes.length = 4) :
    toBeBytes (fromBeBytes bytes) = bytes := by
  match bytes, h with
  | [a, b, c, d], _ =>
      have ha := a.toNat_lt
      have hb := b.toNat_lt
      have hc := c.toNat_lt
      have hd := d.toNat_lt
      simp only [fromBeBytes, toBeBytes, List.foldl_cons, List.foldl_nil, List.cons.injEq,
        and_true, ← UInt8.toNat_inj, UInt8.toNat_ofNat']
      omega

/-- **Frames delimit themselves.** -/
theorem frame_append_inj {p q s t : Bytes} (hp : p.length < 2 ^ 32) (hq : q.length < 2 ^ 32)
    (h : frame p ++ s = frame q ++ t) : p = q ∧ s = t := by
  rw [frame, frame, List.append_assoc, List.append_assoc] at h
  obtain ⟨hheader, hrest⟩ := List.append_inj h rfl
  have hlength : p.length = q.length := by
    rw [← fromBeBytes_toBeBytes hp, hheader, fromBeBytes_toBeBytes hq]
  exact List.append_inj hrest hlength

variable {α : Type}

/-- The answer of a call, or its failure. -/
def io {α : Type} (answer : Except String α) : Net IntentError α :=
  Prog.ofExcept (answer.mapError IntentError.io)

/-- `Write::write_all`, with as many calls as there are bytes. -/
def writeAll (stream : Stream) : ℕ → Bytes → Net IntentError Unit
  | _, [] => .ret ()
  | 0, _ :: _ => .unfinished
  | fuel + 1, b :: bytes => do
      let count ← io (← Prog.call (.write stream (b :: bytes)))
      if count.val = 0 then .fail (.io "failed to write whole buffer")
      else writeAll stream fuel ((b :: bytes).drop count.val)

/-- `Read::read_exact` under `map_frame_read_error`, with as many calls as there are bytes. -/
def readExact (stream : Stream) : ℕ → ℕ → Bytes → Net IntentError Bytes
  | _, 0, bytes => .ret bytes
  | 0, _ + 1, _ => .unfinished
  | fuel + 1, need + 1, bytes => do
      let piece ← io (← Prog.call (.read stream (need + 1)))
      if piece.val = [] then .fail .truncatedFrame
      else readExact stream fuel (need + 1 - piece.val.length) (bytes ++ piece.val)

/-- Write the payload in a frame. -/
def writeFrame (stream : Stream) (payload : Bytes) : Net IntentError Unit := do
  Prog.ensure (payload.length ≤ MAX_FRAME_BYTES) .frameTooLarge
  let length := toBeBytes payload.length
  writeAll stream length.length length
  writeAll stream payload.length payload

/-- Read a frame, and parse its payload. -/
def readFrame (stream : Stream) (fromSlice : Bytes → Option α) : Net IntentError α := do
  let header ← readExact stream 4 4 []
  let length := fromBeBytes header
  Prog.ensure (length ≤ MAX_FRAME_BYTES) .frameTooLarge
  let payload ← readExact stream length length []
  Prog.ofExcept (Checks.okOr (fromSlice payload) .json)

/-! ### The listener -/

section Programs

variable (b64 : Base64.CanonicalCodec) (json : CallbackJson)

/-- The private runtime root under the directory that the environment names. -/
def runtimeRoot (xdgRuntimeDir : Option PathBuf) : Except IntentError PathBuf := do
  let root ← Checks.okOr (xdgRuntimeDir.filter isAbsolute) .runtimeDirectoryUnavailable
  .ok (join (join root (Text.asBytes "terminal-interop")) (Text.asBytes "intent-v1"))

/-- The socket path for one endpoint under a root. -/
def socketPath (root : PathBuf) (endpoint : EndpointId) : Except IntentError PathBuf := do
  let path := join root (Text.asBytes (endpoint.asStr ++ ".sock"))
  Checks.ensure (path.length ≤ SOCKET_PATH_SOFT_LIMIT) (.socketPathTooLong path)
  .ok path

def prepareRuntimeRoot (root : PathBuf) : Net IntentError Unit := do
  io (← Prog.call (.createDirAll root))
  io (← Prog.call (.setPermissions root 0o700))
  let metadata ← io (← Prog.call (.symlinkMetadata root))
  Prog.ensure (metadata.isDir && metadata.mode &&& 0o077 == 0) (.runtimeDirectoryNotPrivate root)

/-- A bound endpoint. -/
structure IntentListener where
  socketPath : PathBuf
  endpoint : EndpointId

/-- Bind a private local endpoint without replacing an existing socket. -/
def bind (root : PathBuf) (endpoint : EndpointId) : Net IntentError IntentListener := do
  prepareRuntimeRoot root
  let path ← Prog.ofExcept (socketPath root endpoint)
  if ← Prog.call (.exists_ path) then .fail (.endpointInUse path)
  else
    io (← Prog.call (.bind path))
    io (← Prog.call (.setPermissions path 0o600))
    .ret ⟨path, endpoint⟩

/-- An intent that was read and checked, with the connection that waits for a receipt. -/
structure IncomingIntent where
  intent : OpenIntentV1
  stream : Stream

/-- The drop of a connection. -/
def dropStream {ε : Type} (stream : Stream) : Net ε Unit := Prog.call (SocketCall.close stream)

/-- What `accept` does with a stream. -/
def acceptBody (listener : IntentListener) (stream : Stream) : Net IntentError IncomingIntent := do
  let intent ← readFrame stream json.intent
  if intent.endpoint ≠ listener.endpoint then
    Prog.ignored (writeFrame stream
      (IntentReceiptV1.rejected listener.endpoint
        "request endpoint does not match the bound consumer").toVec)
    .fail .endpointMismatch
  else
    let _ ← Prog.ofExcept (intent.path b64)
    .ret ⟨intent, stream⟩

/-- Accept and validate one bounded intent request.  A connection is dropped on failure. -/
def accept (listener : IntentListener) : Net IntentError IncomingIntent := do
  let stream ← io (← Prog.call .accept)
  Prog.onFailure (acceptBody b64 json listener stream) (dropStream stream)

/-- Return one receipt to the dispatcher, and drop the connection. -/
def respond (incoming : IncomingIntent) (receipt : IntentReceiptV1) : Net IntentError Unit :=
  Prog.finally_ (writeFrame incoming.stream receipt.toVec) (dropStream incoming.stream)

/-- Why the listener ends: an error of the command, or a panic. -/
inductive ListenFailure
  | app (error : AppError)
  | panicked

/-- `write_output` on the standard output, which fails only for I/O. -/
def writeOutput (bytes : Bytes) : Net String Unit := do
  let answer : Except (WriteFailure bytes) Unit ← Prog.call (SocketCall.print bytes)
  Prog.ofExcept (answer.mapError WriteFailure.message)
  Prog.ofExcept (← Prog.call .flush)

/-- The drop of a listener. -/
def removeSocket (listener : IntentListener) : Net ListenFailure Unit := do
  let _ ← Prog.call (.removeFile listener.socketPath)
  .ret ()

/-- `eprintln!`, which panics when it fails. -/
def complain : Net ListenFailure Unit := do
  let answer : Except String Unit ← Prog.call SocketCall.eprint
  Prog.ofExcept (answer.mapError fun _ => .panicked)

/-- The receipt for an intent that has been handed on, or not. -/
def receiptFor (endpoint : EndpointId) : Except String Unit → IntentReceiptV1
  | .ok () => .forwarded endpoint
  | .error message => .rejected endpoint ("consumer handoff failed: I/O failure: " ++ message)

/-- The receipt for an intent, and then the failure of its line. -/
def acknowledge (listener : IntentListener) (incoming : IncomingIntent)
    (forwardResult : Except String Unit) : Net ListenFailure Bool := do
  (respond incoming (receiptFor listener.endpoint forwardResult)).mapError
    fun error => .app (.intent error)
  Prog.ofExcept (forwardResult.mapError fun message => .app (.io message))
  .ret true

/-- An intent on its way to the consumer. -/
def handOn (listener : IntentListener) (incoming : IncomingIntent) : Net ListenFailure Bool := do
  let forwardResult ← (writeOutput (serializedJson incoming.intent.toVec)).caught
  acknowledge listener incoming forwardResult

/-- One turn of the loop; whether an intent was handed on. -/
def serveOne (listener : IntentListener) : Net ListenFailure Bool := do
  match ← (accept b64 json listener).caught with
  | .error _ => do
      complain
      .ret false
  | .ok incoming => handOn listener incoming

/-- The loop of the listener, cut off after some turns. -/
def serve (listener : IntentListener) (once : Bool) : ℕ → Net ListenFailure Unit
  | 0 => .unfinished
  | fuel + 1 => do
      let handed ← serveOne b64 json listener
      if handed && once then .ret () else serve listener once fuel

/-- The listener: the command `intent listen`. -/
def listenForIntents (xdgRuntimeDir : Option PathBuf) (endpoint : String) (once : Bool)
    (fuel : ℕ) : Net ListenFailure Unit := do
  let endpoint ← Prog.ofExcept ((EndpointId.parse endpoint).mapError fun e => .app (.intent e))
  let root ← Prog.ofExcept ((runtimeRoot xdgRuntimeDir).mapError fun e => .app (.intent e))
  let listener ← (bind root endpoint).mapError fun e => .app (.intent e)
  Prog.finally_
    (do
      (writeOutput (serializedJson (IntentReadyV1.new endpoint).toVec)).mapError
        fun message => .app (.io message)
      serve b64 json listener once fuel)
    (removeSocket listener)

/-! ### The dispatcher -/

/-- Deliver one validated intent and wait for its listener receipt. -/
def dispatch (root : PathBuf) (intent : OpenIntentV1) (timeout : ℕ) :
    Net IntentError IntentReceiptV1 := do
  let socket ← Prog.ofExcept (socketPath root intent.endpoint)
  let stream ← io (← Prog.call (.connect socket))
  Prog.finally_
    (do
      io (← Prog.call (.setReadTimeout stream timeout))
      io (← Prog.call (.setWriteTimeout stream timeout))
      writeFrame stream intent.toVec
      let receipt ← readFrame stream json.receipt
      Prog.ofExcept receipt.validate
      Prog.ensure (receipt.endpoint = intent.endpoint) .endpointMismatch
      .ret receipt)
    (dropStream stream)

end Programs

/-! ### Frames on a stream -/

/-- A call that reads from a stream. -/
def ReadOn (u : Stream) (e : Event) : Prop := ∃ limit answer, e = ⟨.read u limit, answer⟩

/-- A call that writes to a stream. -/
def WriteOn (u : Stream) (e : Event) : Prop := ∃ bytes answer, e = ⟨.write u bytes, answer⟩

variable {u : Stream} {events : List Event}

@[simp] theorem io_returns_iff {answer : Except String α} {a : α} :
    (io answer).Returns events a ↔ events = [] ∧ answer = .ok a := by
  cases answer with
  | ok b => simp [io, Except.mapError, eq_comm]
  | error message => simp [io, Except.mapError]

/-- A call that writes to a stream and gets nothing taken. -/
def BrokenOn (u : Stream) (e : Event) : Prop :=
  ∃ bytes, bytes ≠ [] ∧ ((∃ message, e = ⟨.write u bytes, .error message⟩) ∨
    ∃ count, count.val = 0 ∧ e = ⟨.write u bytes, .ok count⟩)

/-- **What a program does that writes some bytes.** -/
structure Writes (u : Stream) (bytes : Bytes) (events : List Event)
    (left : Net IntentError Unit) : Prop where
  only : ∀ e ∈ events, WriteOn u e
  sent : writesOf u events <+: bytes
  returned : left = .ret () → writesOf u events = bytes
  failed : ∀ error, left = .fail error → ∃ e ∈ events, BrokenOn u e

/-- **What a program does that reads some number of bytes.** -/
structure Reads (u : Stream) (need : ℕ) (before : Bytes) (events : List Event)
    (left : Net IntentError Bytes) : Prop where
  only : ∀ e ∈ events, ReadOn u e
  returned : ∀ bytes, left = .ret bytes →
    bytes = before ++ readsOf u events ∧ (readsOf u events).length = need

/-- One turn of the write loop. -/
theorem writeAll_cons_reaches {fuel : ℕ} {b : UInt8} {bytes : Bytes} {left : Net IntentError Unit}
    (h : (writeAll u (fuel + 1) (b :: bytes)).Reaches events left) :
    (events = [] ∧ ∃ op next, left = .perform op next) ∨
      (∃ e error, events = [e] ∧ BrokenOn u e ∧ WriteOn u e ∧ writtenBy u e = [] ∧
        left = .fail error) ∨
      ∃ (count : Fin ((b :: bytes).length + 1)) (rest : List Event), count.val ≠ 0 ∧
        events = ⟨.write u (b :: bytes), .ok count⟩ :: rest ∧
        (writeAll u fuel ((b :: bytes).drop count.val)).Reaches rest left := by
  rcases Prog.perform_reaches_iff.1 h with ⟨rfl, rfl⟩ | ⟨answer, rest, rfl, hrest⟩
  · exact Or.inl ⟨rfl, _, _, rfl⟩
  · cases answer with
    | error message =>
        obtain ⟨rfl, rfl⟩ := Prog.fail_reaches_iff.1 hrest
        exact Or.inr (Or.inl ⟨_, _, rfl, ⟨_, List.cons_ne_nil _ _, Or.inl ⟨message, rfl⟩⟩,
          ⟨_, _, rfl⟩, rfl, rfl⟩)
    | ok count =>
        have hloop : (if count.val = 0 then
            (.fail (.io "failed to write whole buffer") : Net IntentError Unit)
            else writeAll u fuel ((b :: bytes).drop count.val)).Reaches rest left := hrest
        split_ifs at hloop with hzero
        · obtain ⟨rfl, rfl⟩ := Prog.fail_reaches_iff.1 hloop
          refine Or.inr (Or.inl ⟨_, _, rfl, ⟨_, List.cons_ne_nil _ _, Or.inr ⟨count, hzero, rfl⟩⟩,
            ⟨_, _, rfl⟩, ?_, rfl⟩)
          simp [writtenBy, hzero]
        · exact Or.inr (Or.inr ⟨count, rest, hzero, rfl, hloop⟩)

/-- **A write loop writes its bytes**, unless nothing is taken any more. -/
theorem writeAll_writes {fuel : ℕ} {bytes : Bytes} {left : Net IntentError Unit}
    (h : (writeAll u fuel bytes).Reaches events left) : Writes u bytes events left := by
  induction fuel generalizing bytes events with
  | zero =>
      cases bytes with
      | nil =>
          obtain ⟨rfl, rfl⟩ := Prog.ret_reaches_iff.1 h
          exact ⟨by simp, List.nil_prefix, fun _ => rfl, nofun⟩
      | cons b bytes =>
          obtain ⟨rfl, rfl⟩ := Prog.unfinished_reaches_iff.1 h
          exact ⟨by simp, List.nil_prefix, nofun,
            nofun⟩
  | succ fuel ih =>
      cases bytes with
      | nil =>
          obtain ⟨rfl, rfl⟩ := Prog.ret_reaches_iff.1 h
          exact ⟨by simp, List.nil_prefix, fun _ => rfl, nofun⟩
      | cons b bytes =>
          rcases writeAll_cons_reaches h with ⟨rfl, op, next, rfl⟩ |
            ⟨e, error, rfl, hbroken, hwrite, hnone, rfl⟩ | ⟨count, rest, -, rfl, hrest⟩
          · exact ⟨by simp, List.nil_prefix, nofun,
              nofun⟩
          · refine ⟨by simpa using hwrite, ?_, nofun, fun _ _ => ?_⟩
            · simp [hnone]
            · exact ⟨e, List.mem_singleton_self e, hbroken⟩
          · obtain ⟨honly, hsent, hreturned, hfailed⟩ := ih hrest
            have hfirst : writesOf u (⟨.write u (b :: bytes), .ok count⟩ :: rest) =
                (b :: bytes).take count.val ++ writesOf u rest := by
              simp [writtenBy]
            refine ⟨List.forall_mem_cons.2 ⟨⟨_, _, rfl⟩, honly⟩, ?_, ?_, ?_⟩
            · calc writesOf u (⟨.write u (b :: bytes), .ok count⟩ :: rest)
                  = (b :: bytes).take count.val ++ writesOf u rest := hfirst
                _ <+: (b :: bytes).take count.val ++ (b :: bytes).drop count.val :=
                    (List.prefix_append_right_inj _).2 hsent
                _ = b :: bytes := List.take_append_drop _ _
            · intro hleft
              rw [hfirst, hreturned hleft, List.take_append_drop]
            · intro error hleft
              obtain ⟨e, he, hbroken⟩ := hfailed error hleft
              exact ⟨e, List.mem_cons_of_mem _ he, hbroken⟩

/-- **A read loop reads as many bytes as it needs**, if it returns. -/
theorem readExact_reads {fuel need : ℕ} {before : Bytes} {left : Net IntentError Bytes}
    (h : (readExact u fuel need before).Reaches events left) :
    Reads u need before events left := by
  induction fuel generalizing need before events with
  | zero =>
      cases need with
      | zero =>
          obtain ⟨rfl, rfl⟩ := Prog.ret_reaches_iff.1 h
          refine ⟨by simp, fun bytes hleft => ?_⟩
          obtain rfl := Prog.ret.inj hleft
          simp
      | succ need =>
          obtain ⟨rfl, rfl⟩ := Prog.unfinished_reaches_iff.1 h
          exact ⟨by simp, nofun⟩
  | succ fuel ih =>
      cases need with
      | zero =>
          obtain ⟨rfl, rfl⟩ := Prog.ret_reaches_iff.1 h
          refine ⟨by simp, fun bytes hleft => ?_⟩
          obtain rfl := Prog.ret.inj hleft
          simp
      | succ need =>
          rcases Prog.perform_reaches_iff.1 h with ⟨rfl, rfl⟩ | ⟨answer, rest, rfl, hrest⟩
          · exact ⟨by simp, nofun⟩
          · cases answer with
            | error message =>
                obtain ⟨rfl, rfl⟩ := Prog.fail_reaches_iff.1 hrest
                refine ⟨?_, nofun⟩
                simp only [List.forall_mem_singleton]
                exact ⟨_, _, rfl⟩
            | ok piece =>
                have hloop : (if piece.val = [] then
                    (.fail .truncatedFrame : Net IntentError Bytes)
                    else readExact u fuel (need + 1 - piece.val.length)
                      (before ++ piece.val)).Reaches rest left := hrest
                split_ifs at hloop with hempty
                · obtain ⟨rfl, rfl⟩ := Prog.fail_reaches_iff.1 hloop
                  refine ⟨?_, nofun⟩
                  simp only [List.forall_mem_singleton]
                  exact ⟨_, _, rfl⟩
                · obtain ⟨honly, hreturned⟩ := ih hloop
                  refine ⟨List.forall_mem_cons.2 ⟨⟨_, _, rfl⟩, honly⟩, fun bytes hleft => ?_⟩
                  obtain ⟨rfl, hlength⟩ := hreturned bytes hleft
                  have hle := piece.property
                  simp only [Sockets.readsOf_cons, readBy, if_true, List.length_append]
                  exact ⟨List.append_assoc _ _ _, by omega⟩

/-- The rule for two writes. -/
theorem Writes.bind {x y : Net IntentError Unit} {first second : Bytes}
    {left : Net IntentError Unit}
    (hx : ∀ {events left}, x.Reaches events left → Writes u first events left)
    (hy : ∀ {events left}, y.Reaches events left → Writes u second events left)
    (h : (x >>= fun _ => y).Reaches events left) : Writes u (first ++ second) events left := by
  have hboth : ∀ {e₁ e₂ left}, x.Returns e₁ () → y.Reaches e₂ left →
      Writes u (first ++ second) (e₁ ++ e₂) left := by
    intro e₁ e₂ left h₁ h₂
    have hfirst := hx h₁
    have hsecond := hy h₂
    have hwrites : writesOf u (e₁ ++ e₂) = first ++ writesOf u e₂ := by
      rw [Sockets.writesOf_append, hfirst.returned rfl]
    refine ⟨List.forall_mem_append.2 ⟨hfirst.only, hsecond.only⟩, ?_, ?_, ?_⟩
    · rw [hwrites]
      exact (List.prefix_append_right_inj first).2 hsecond.sent
    · intro hleft
      rw [hwrites, hsecond.returned hleft]
    · intro error hleft
      obtain ⟨e, he, hbroken⟩ := hsecond.failed error hleft
      exact ⟨e, List.mem_append_right e₁ he, hbroken⟩
  rcases Prog.bind_reaches_iff.1 h with ⟨z, hz, rfl⟩ | ⟨e₁, _, e₂, h₁, h₂, rfl⟩
  · -- the first part is still running, or has just ended
    cases z with
    | ret a =>
        have hlast := hboth hz (Prog.Reaches.here y)
        rwa [List.append_nil] at hlast
    | fail error =>
        obtain ⟨honly, hsent, -, hfailed⟩ := hx hz
        refine ⟨honly, hsent.trans (List.prefix_append first second), nofun, fun _ _ => ?_⟩
        exact hfailed error rfl
    | unfinished =>
        obtain ⟨honly, hsent, -, -⟩ := hx hz
        exact ⟨honly, hsent.trans (List.prefix_append first second), nofun, nofun⟩
    | perform op next =>
        obtain ⟨honly, hsent, -, -⟩ := hx hz
        exact ⟨honly, hsent.trans (List.prefix_append first second), nofun, nofun⟩
  · exact hboth h₁ h₂

theorem writeFrame_of_le {payload : Bytes} (h : payload.length ≤ MAX_FRAME_BYTES) :
    writeFrame u payload =
      writeAll u 4 (toBeBytes payload.length) >>= fun _ => writeAll u payload.length payload := by
  simp only [writeFrame, Prog.ensure, h, decide_true, if_true, Prog.ret_bind]
  rfl

theorem writeFrame_of_lt {payload : Bytes} (h : MAX_FRAME_BYTES < payload.length) :
    writeFrame u payload = .fail .frameTooLarge := by
  simp only [writeFrame, Prog.ensure, Nat.not_le.2 h, decide_false, Bool.false_eq_true, if_false,
    Prog.fail_bind]

/-- **What is sent with a frame.** -/
theorem writeFrame_writes {payload : Bytes} {left : Net IntentError Unit}
    (hlength : payload.length ≤ MAX_FRAME_BYTES)
    (h : (writeFrame u payload).Reaches events left) : Writes u (frame payload) events left := by
  rw [writeFrame_of_le hlength] at h
  exact Writes.bind writeAll_writes writeAll_writes h

/-- Whatever its length, a payload is sent in its frame or not at all. -/
theorem writeFrame_sent {payload : Bytes} {left : Net IntentError Unit}
    (h : (writeFrame u payload).Reaches events left) :
    (∀ e ∈ events, WriteOn u e) ∧ writesOf u events <+: frame payload ∧
      (writesOf u events ≠ [] → payload.length ≤ MAX_FRAME_BYTES) := by
  by_cases hlength : payload.length ≤ MAX_FRAME_BYTES
  · have hwrites := writeFrame_writes hlength h
    exact ⟨hwrites.only, hwrites.sent, fun _ => hlength⟩
  · rw [writeFrame_of_lt (Nat.lt_of_not_le hlength)] at h
    rw [(Prog.fail_reaches_iff.1 h).1]
    exact ⟨by simp, List.nil_prefix, fun hne => absurd rfl hne⟩

/-- **A frame that was sent completely.** -/
theorem writeFrame_returns {payload : Bytes} (h : (writeFrame u payload).Returns events ()) :
    payload.length ≤ MAX_FRAME_BYTES ∧ writesOf u events = frame payload := by
  by_cases hlength : payload.length ≤ MAX_FRAME_BYTES
  · exact ⟨hlength, (writeFrame_writes hlength h).returned rfl⟩
  · rw [writeFrame_of_lt (Nat.lt_of_not_le hlength)] at h
    exact absurd h Prog.not_fail_returns

/-- Reading a frame only reads. -/
theorem readFrame_only {fromSlice : Bytes → Option α} {left : Net IntentError α}
    (h : (readFrame u fromSlice).Reaches events left) : ∀ e ∈ events, ReadOn u e := by
  rcases Prog.bind_reaches_iff.1 h with ⟨z, hz, -⟩ | ⟨e₁, header, e₂, h₁, h₂, rfl⟩
  · exact (readExact_reads hz).only
  · refine List.forall_mem_append.2 ⟨(readExact_reads h₁).only, ?_⟩
    by_cases hlength : fromBeBytes header ≤ MAX_FRAME_BYTES
    · simp only [Prog.ensure, hlength, decide_true, if_true, Prog.ret_bind] at h₂
      rcases Prog.bind_reaches_iff.1 h₂ with ⟨z, hz, -⟩ | ⟨e₃, payload, e₄, h₃, h₄, rfl⟩
      · exact (readExact_reads hz).only
      · have hnil : e₄ = [] := by
          cases hparse : fromSlice payload with
          | some a =>
              rw [hparse] at h₄
              exact (Prog.ret_reaches_iff.1 h₄).1
          | none =>
              rw [hparse] at h₄
              exact (Prog.fail_reaches_iff.1 h₄).1
        rw [hnil, List.append_nil]
        exact (readExact_reads h₃).only
    · simp only [Prog.ensure, hlength, decide_false, Bool.false_eq_true, if_false,
        Prog.fail_bind] at h₂
      rw [(Prog.fail_reaches_iff.1 h₂).1]
      simp

/-- **What is read with a frame.** -/
theorem readFrame_returns {fromSlice : Bytes → Option α} {a : α}
    (h : (readFrame u fromSlice).Returns events a) :
    ∃ payload, payload.length ≤ MAX_FRAME_BYTES ∧ fromSlice payload = some a ∧
      readsOf u events = frame payload := by
  obtain ⟨e₁, header, _, h₁, hrest, rfl⟩ := Prog.bind_returns_iff.1 h
  obtain ⟨_, ⟨⟩, _, h₂, hlast, rfl⟩ := Prog.bind_returns_iff.1 hrest
  obtain ⟨e₃, payload, _, h₃, h₄, rfl⟩ := Prog.bind_returns_iff.1 hlast
  obtain ⟨rfl, hbound⟩ := Prog.ensure_returns_iff.1 h₂
  obtain ⟨rfl, hparse⟩ := Prog.ofExcept_returns_iff.1 h₄
  obtain ⟨rfl, hheader⟩ := (readExact_reads h₁).returned header rfl
  obtain ⟨rfl, hpayload⟩ := (readExact_reads h₃).returned payload rfl
  simp only [List.nil_append] at hparse hpayload hbound
  refine ⟨_, ?_, Checks.okOr_eq_ok_iff.1 hparse, ?_⟩
  · rw [hpayload]
    exact of_decide_eq_true hbound
  · simp only [Sockets.readsOf_append, List.nil_append, List.append_nil]
    rw [frame, hpayload, toBeBytes_fromBeBytes hheader]

end Callback

end TermInterop
