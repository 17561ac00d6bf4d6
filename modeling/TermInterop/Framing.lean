/-
Frames on a byte stream.

A stream is read in pieces of any size, and nobody who reads knows where the pieces end.  `Reading`
says how a program ends that only reads, however the stream in front of it is split: it is defined
by the calls of the program, so that it holds only of programs that come to an end.  `parseFrame`
says what the first frame of a stream is, in terms of the bytes alone, and `readFrame` computes it.

Main definitions:

* `TermInterop.Callback.Fed`, `TermInterop.Callback.Reading` — reads from a stream, and how a reader
  ends under every splitting of it;
* `TermInterop.Callback.parseFrame` — the first frame of a stream;
* `TermInterop.Callback.readFrames`, `TermInterop.Callback.writeFrames` — one frame after the other.

Main results:

* `TermInterop.Callback.Reading.bind`, `TermInterop.Callback.Reading.of_reaches`,
  `TermInterop.Callback.Reading.exists_run` — the rule for sequences, and the runs of a reader;
* `TermInterop.Callback.readFrame_reading` — **a frame is read under every splitting**;
* `TermInterop.Callback.frames_carry_intents` — valid intents travel in frames;
* `TermInterop.Callback.receipt_sendable_iff` — which valid receipts do.
-/

import TermInterop.Libraries

set_option relaxedAutoImplicit false
set_option autoImplicit false

namespace TermInterop

namespace Callback

open Sockets (Event Net SocketCall Stream readsOf writesOf readBy writtenBy)

variable {ε α β : Type}

/-! ### Reading a stream, however it is split -/

/-- **Reads from a stream**, and what is left of it.  A read gets some of the next bytes, and
nothing only where the stream ends. -/
inductive Fed (u : Stream) : Bytes → List Event → Bytes → Prop
  | stop (s : Bytes) : Fed u s [] s
  | read {limit : ℕ} {piece : {bytes : Bytes // bytes.length ≤ limit}} {s rest : Bytes}
      {events : List Event} :
      (piece.val = [] → limit = 0 ∨ s = []) → Fed u s events rest →
        Fed u (piece.val ++ s) (⟨.read u limit, .ok piece⟩ :: events) rest

/-- **How a program ends that only reads**, under every splitting of the stream in front of it. -/
inductive Reading (u : Stream) (post : Except ε α → Bytes → Prop) : Bytes → Net ε α → Prop
  | returned {s : Bytes} {a : α} : post (.ok a) s → Reading u post s (.ret a)
  | failed {s : Bytes} {error : ε} : post (.error error) s → Reading u post s (.fail error)
  | read {s : Bytes} {limit : ℕ} {next : SocketCall.Answer (.read u limit) → Net ε α} :
      (∀ (piece : {bytes : Bytes // bytes.length ≤ limit}) (rest : Bytes), s = piece.val ++ rest →
        (piece.val = [] → limit = 0 ∨ rest = []) → Reading u post rest (next (.ok piece))) →
      Reading u post s (.perform (.read u limit) next)

section Reading

variable {u : Stream} {post : Except ε α → Bytes → Prop} {s rest : Bytes} {x left : Net ε α}
  {events : List Event}

theorem Reading.imp {post' : Except ε α → Bytes → Prop} (h : Reading u post s x)
    (himp : ∀ r rest, post r rest → post' r rest) : Reading u post' s x := by
  induction h with
  | returned hpost => exact .returned (himp _ _ hpost)
  | failed hpost => exact .failed (himp _ _ hpost)
  | read _ ih => exact .read fun piece rest hs hempty => ih piece rest hs hempty

/-- **The rule for sequences.** -/
theorem Reading.bind {post' : Except ε β → Bytes → Prop} {f : α → Net ε β} (h : Reading u post s x)
    (hok : ∀ a rest, post (.ok a) rest → Reading u post' rest (f a))
    (herror : ∀ error rest, post (.error error) rest → post' (.error error) rest) :
    Reading u post' s (x >>= f) := by
  induction h with
  | returned hpost => exact hok _ _ hpost
  | failed hpost => exact .failed (herror _ _ hpost)
  | read _ ih => exact .read fun piece rest hs hempty => ih piece rest hs hempty

/-- What is left of a reader after some reads still ends so. -/
theorem Reading.of_reaches (h : Reading u post s x) (hfed : Fed u s events rest)
    (hrun : x.Reaches events left) : Reading u post rest left := by
  induction hrun generalizing s with
  | here =>
      cases hfed with
      | stop => exact h
  | @perform op next answer events left hrun ih =>
      cases hfed with
      | read hempty hfed =>
          cases h with
          | read hnext => exact ih (hnext _ _ rfl hempty) hfed

/-- A reader that has ended has ended so. -/
theorem Reading.of_ends {r : Except ε α} (h : Reading u post s x) (hfed : Fed u s events rest)
    (hrun : x.Ends events r) : post r rest := by
  have hend := h.of_reaches hfed hrun
  cases r with
  | ok a =>
      cases hend with
      | returned hpost => exact hpost
  | error error =>
      cases hend with
      | failed hpost => exact hpost

/-- There is a splitting, and the reader ends. -/
theorem Reading.exists_run (h : Reading u post s x) :
    ∃ events rest r, Fed u s events rest ∧ x.Ends events r ∧ post r rest := by
  induction h with
  | @returned s a hpost => exact ⟨[], s, .ok a, .stop s, Prog.Reaches.here _, hpost⟩
  | @failed s error hpost => exact ⟨[], s, .error error, .stop s, Prog.Reaches.here _, hpost⟩
  | @read s limit next _ ih =>
      -- all bytes that are there, up to the limit
      obtain ⟨piece, hpiece⟩ : ∃ piece : {bytes : Bytes // bytes.length ≤ limit},
          piece.val = s.take limit := ⟨⟨s.take limit, List.length_take_le limit s⟩, rfl⟩
      have hs : s = piece.val ++ s.drop limit := by rw [hpiece, List.take_append_drop]
      have hempty : piece.val = [] → limit = 0 ∨ s.drop limit = [] := by
        rw [hpiece, List.take_eq_nil_iff]
        rintro (hzero | rfl)
        · exact Or.inl hzero
        · exact Or.inr List.drop_nil
      obtain ⟨events, rest, r, hfed, hends, hpost⟩ := ih piece _ hs hempty
      have hread := Fed.read hempty hfed
      rw [← hs] at hread
      exact ⟨_, rest, r, hread, Prog.Reaches.perform hends, hpost⟩

end Reading

/-! ### Frames of a stream -/

section Frames

variable {u : Stream} {s : Bytes} {fromSlice : Bytes → Option α} {payload rest : Bytes} {a : α}

/-- The bytes that a read loop returns. -/
def readExactly (need : ℕ) (before s : Bytes) : Except IntentError Bytes :=
  if need ≤ s.length then .ok (before ++ s.take need) else .error .truncatedFrame

/-- **A read loop gets what it needs**, or all there is. -/
theorem readExact_reading {fuel need : ℕ} {before : Bytes} (hfuel : need ≤ fuel) :
    Reading u (fun r rest => r = readExactly need before s ∧ rest = s.drop need) s
      (readExact u fuel need before) := by
  have hdone : ∀ {fuel before s}, Reading u
      (fun r rest => r = readExactly 0 before s ∧ rest = s.drop 0) s
        (readExact u fuel 0 before) := by
    intro fuel before s
    have hread : readExactly 0 before s = .ok before := by
      rw [readExactly, if_pos (Nat.zero_le _), List.take_zero, List.append_nil]
    cases fuel <;> exact .returned ⟨hread.symm, rfl⟩
  induction fuel generalizing need before s with
  | zero =>
      obtain rfl := Nat.le_zero.1 hfuel
      exact hdone
  | succ fuel ih =>
      cases need with
      | zero => exact hdone
      | succ need =>
          refine .read fun piece rest hs hempty => ?_
          subst hs
          change Reading u _ rest (if piece.val = [] then
            (.fail .truncatedFrame : Net IntentError Bytes)
            else readExact u fuel (need + 1 - piece.val.length) (before ++ piece.val))
          by_cases hnil : piece.val = []
          · -- the stream has ended
            obtain rfl : rest = [] := (hempty hnil).resolve_left (Nat.succ_ne_zero need)
            rw [if_pos hnil]
            refine .failed ⟨?_, ?_⟩
            · simp [readExactly, hnil]
            · simp [hnil]
          · have hpos : 0 < piece.val.length := List.length_pos_iff.2 hnil
            have hle := piece.property
            rw [if_neg hnil]
            refine (ih (by omega)).imp fun r left hpost => ?_
            obtain ⟨rfl, rfl⟩ := hpost
            have htake : (piece.val ++ rest).take (need + 1) =
                piece.val ++ rest.take (need + 1 - piece.val.length) := by
              rw [List.take_append, List.take_of_length_le hle]
            have hdrop : (piece.val ++ rest).drop (need + 1) =
                rest.drop (need + 1 - piece.val.length) := by
              rw [List.drop_append, List.drop_of_length_le hle, List.nil_append]
            have hlength : need + 1 ≤ (piece.val ++ rest).length ↔
                need + 1 - piece.val.length ≤ rest.length := by
              rw [List.length_append]
              omega
            refine ⟨?_, hdrop.symm⟩
            simp only [readExactly, htake, hlength, List.append_assoc]

/-- **The first frame of a stream**, and what is behind it. -/
def parseFrame (fromSlice : Bytes → Option α) (s : Bytes) : Except IntentError α × Bytes :=
  if s.length < 4 then (.error .truncatedFrame, [])
  else if MAX_FRAME_BYTES < fromBeBytes (s.take 4) then (.error .frameTooLarge, s.drop 4)
  else if (s.drop 4).length < fromBeBytes (s.take 4) then (.error .truncatedFrame, [])
  else (Checks.okOr (fromSlice ((s.drop 4).take (fromBeBytes (s.take 4)))) .json,
    (s.drop 4).drop (fromBeBytes (s.take 4)))

/-- **A frame is read under every splitting.** -/
theorem readFrame_reading : Reading u (fun r rest => (r, rest) = parseFrame fromSlice s) s
    (readFrame u fromSlice) := by
  refine (readExact_reading (le_refl 4)).bind ?_ ?_
  · rintro header rest ⟨hheader, rfl⟩
    have hlength : 4 ≤ s.length := by
      by_contra hshort
      rw [readExactly, if_neg hshort] at hheader
      cases hheader
    rw [readExactly, if_pos hlength, List.nil_append] at hheader
    obtain rfl := Except.ok.inj hheader
    by_cases hlarge : MAX_FRAME_BYTES < fromBeBytes (s.take 4)
    · simp only [Prog.ensure, Nat.not_le.2 hlarge, decide_false, Bool.false_eq_true, if_false,
        Prog.fail_bind]
      refine .failed ?_
      rw [parseFrame, if_neg (Nat.not_lt.2 hlength), if_pos hlarge]
    · simp only [Prog.ensure, Nat.not_lt.1 hlarge, decide_true, if_true, Prog.ret_bind]
      refine (readExact_reading (le_refl _)).bind ?_ ?_
      · rintro payload rest ⟨hpayload, rfl⟩
        have hall : fromBeBytes (s.take 4) ≤ (s.drop 4).length := by
          by_contra hshort
          rw [readExactly, if_neg hshort] at hpayload
          cases hpayload
        rw [readExactly, if_pos hall, List.nil_append] at hpayload
        obtain rfl := Except.ok.inj hpayload
        have hframe : parseFrame fromSlice s =
            (Checks.okOr (fromSlice ((s.drop 4).take (fromBeBytes (s.take 4)))) .json,
              (s.drop 4).drop (fromBeBytes (s.take 4))) := by
          rw [parseFrame, if_neg (Nat.not_lt.2 hlength), if_neg hlarge, if_neg (Nat.not_lt.2 hall)]
        cases hparse : fromSlice ((s.drop 4).take (fromBeBytes (s.take 4))) with
        | some a =>
            refine .returned ?_
            rw [hframe, hparse]
            rfl
        | none =>
            refine .failed ?_
            rw [hframe, hparse]
            rfl
      · rintro error rest ⟨hpayload, rfl⟩
        have hshort : (s.drop 4).length < fromBeBytes (s.take 4) := by
          by_contra hall
          rw [readExactly, if_pos (Nat.not_lt.1 hall)] at hpayload
          cases hpayload
        rw [readExactly, if_neg (Nat.not_le.2 hshort)] at hpayload
        obtain rfl := Except.error.inj hpayload
        rw [parseFrame, if_neg (Nat.not_lt.2 hlength), if_neg hlarge, if_pos hshort,
          List.drop_of_length_le (Nat.le_of_lt hshort)]
  · rintro error rest ⟨hheader, rfl⟩
    have hshort : s.length < 4 := by
      by_contra hlength
      rw [readExactly, if_pos (Nat.not_lt.1 hlength)] at hheader
      cases hheader
    rw [readExactly, if_neg (Nat.not_le.2 hshort)] at hheader
    obtain rfl := Except.error.inj hheader
    rw [parseFrame, if_pos hshort, List.drop_of_length_le (Nat.le_of_lt hshort)]

/-- **The first frame is the one that was written first.** -/
theorem parseFrame_frame (hlength : payload.length ≤ MAX_FRAME_BYTES)
    (hparse : fromSlice payload = some a) :
    parseFrame fromSlice (frame payload ++ rest) = (.ok a, rest) := by
  have hmax : MAX_FRAME_BYTES < 2 ^ 32 := by decide
  have htake : (frame payload ++ rest).take 4 = toBeBytes payload.length := rfl
  have hdrop : (frame payload ++ rest).drop 4 = payload ++ rest := rfl
  have hnumber : fromBeBytes (toBeBytes payload.length) = payload.length :=
    fromBeBytes_toBeBytes (by omega)
  have hfour : ¬ (frame payload ++ rest).length < 4 := by
    rw [← List.take_append_drop 4 (frame payload ++ rest), htake]
    simp [toBeBytes]
  have hall : ¬ (payload ++ rest).length < payload.length := by simp
  rw [parseFrame, htake, hdrop, hnumber, if_neg hfour, if_neg (Nat.not_lt.2 hlength), if_neg hall,
    List.take_left, List.drop_left, hparse]
  rfl

/-- **A part of a frame is no frame.** -/
theorem parseFrame_part {part : Bytes} (hlength : payload.length ≤ MAX_FRAME_BYTES)
    (hpart : part <+: frame payload) (hne : part ≠ frame payload) :
    parseFrame fromSlice part = (.error .truncatedFrame, []) := by
  have hmax : MAX_FRAME_BYTES < 2 ^ 32 := by decide
  by_cases hfour : part.length < 4
  · rw [parseFrame, if_pos hfour]
  · have hlt : part.length < (frame payload).length := by
      refine Nat.lt_of_le_of_ne hpart.length_le fun heq => hne (hpart.eq_of_length heq)
    have htake : part.take 4 = toBeBytes payload.length := by
      obtain ⟨more, hmore⟩ := hpart
      have hframe : (frame payload).take 4 = toBeBytes payload.length := rfl
      rw [← hframe, ← hmore, List.take_append_of_le_length (Nat.not_lt.1 hfour)]
    have hshort : (part.drop 4).length < payload.length := by
      rw [List.length_drop]
      simp only [frame, toBeBytes, List.length_append, List.length_cons, List.length_nil] at hlt
      omega
    rw [parseFrame, if_neg hfour, htake, fromBeBytes_toBeBytes (by omega),
      if_neg (Nat.not_lt.2 hlength), if_pos hshort]

/-- **A header that announces too much** is refused as soon as it has been read. -/
theorem parseFrame_of_lt {header : Bytes} (hheader : header.length = 4)
    (hlarge : MAX_FRAME_BYTES < fromBeBytes header) :
    parseFrame fromSlice (header ++ rest) = (.error .frameTooLarge, rest) := by
  have hfour : ¬ (header ++ rest).length < 4 := by
    rw [List.length_append]
    omega
  rw [parseFrame, if_neg hfour, ← hheader, List.take_left, List.drop_left, if_pos hlarge]

/-- Write one payload after the other, each in its frame. -/
def writeFrames (u : Stream) : List Bytes → Net IntentError Unit
  | [] => .ret ()
  | payload :: payloads => do
      writeFrame u payload
      writeFrames u payloads

/-- Read some number of frames. -/
def readFrames (u : Stream) (fromSlice : Bytes → Option α) : ℕ → Net IntentError (List α)
  | 0 => .ret []
  | count + 1 => do
      let a ← readFrame u fromSlice
      let more ← readFrames u fromSlice count
      .ret (a :: more)

/-- What was written with some frames. -/
theorem writeFrames_returns {payloads : List Bytes} {events : List Event}
    (h : (writeFrames u payloads).Returns events ()) :
    writesOf u events = payloads.flatMap frame := by
  induction payloads generalizing events with
  | nil =>
      obtain ⟨rfl, -⟩ := Prog.ret_returns_iff.1 h
      rfl
  | cons payload payloads ih =>
      obtain ⟨e₁, _, e₂, h₁, h₂, rfl⟩ := Prog.bind_returns_iff.1 h
      rw [Sockets.writesOf_append, (writeFrame_returns h₁).2, ih h₂, List.flatMap_cons]

/-- **The frames of a stream are read one after the other.** -/
theorem readFrames_reading {toVec : α → Bytes} {documents : List α}
    (hlength : ∀ d ∈ documents, (toVec d).length ≤ MAX_FRAME_BYTES)
    (hparse : ∀ d, fromSlice (toVec d) = some d) (tail : Bytes) :
    Reading u (fun r rest => r = .ok documents ∧ rest = tail)
      ((documents.map toVec).flatMap frame ++ tail)
      (readFrames u fromSlice documents.length) := by
  induction documents with
  | nil => exact .returned ⟨rfl, rfl⟩
  | cons d documents ih =>
      obtain ⟨hd, hrest⟩ := List.forall_mem_cons.1 hlength
      rw [List.map_cons, List.flatMap_cons, List.append_assoc]
      refine readFrame_reading.bind ?_ ?_
      · intro a rest hpost
        rw [parseFrame_frame hd (hparse d)] at hpost
        obtain ⟨ha, rfl⟩ := Prod.mk.inj hpost
        obtain rfl := Except.ok.inj ha
        refine (ih hrest).bind ?_ ?_
        · rintro more rest ⟨hmore, rfl⟩
          obtain rfl := Except.ok.inj hmore
          exact .returned ⟨rfl, rfl⟩
        · rintro error rest ⟨herror, -⟩
          cases herror
      · intro error rest hpost
        rw [parseFrame_frame hd (hparse d)] at hpost
        cases (Prod.mk.inj hpost).1

/-! ### Frames in two calls -/

/-- All bytes may be taken at once. -/
theorem writeAll_returns_once {bytes : Bytes} (h : bytes ≠ []) (fuel : ℕ) :
    (writeAll u (fuel + 1) bytes).Returns [⟨.write u bytes, .ok (Fin.last bytes.length)⟩] () := by
  cases bytes with
  | nil => exact absurd rfl h
  | cons b bytes =>
      refine Prog.Reaches.perform ?_
      change (if (Fin.last (b :: bytes).length).val = 0 then
        (.fail (.io "failed to write whole buffer") : Net IntentError Unit)
        else writeAll u fuel ((b :: bytes).drop (Fin.last (b :: bytes).length).val)).Reaches []
          (.ret ())
      rw [Fin.val_last, if_neg (List.length_pos_iff.2 h).ne', List.drop_length]
      cases fuel <;> exact Prog.Reaches.here _

/-- All bytes may arrive at once. -/
theorem readExact_returns_once {bytes : Bytes} (h : bytes ≠ []) (fuel : ℕ) :
    (readExact u (fuel + 1) bytes.length []).Returns
      [⟨.read u bytes.length, .ok ⟨bytes, le_refl _⟩⟩] bytes := by
  cases bytes with
  | nil => exact absurd rfl h
  | cons b bytes =>
      refine Prog.Reaches.perform ?_
      change (if b :: bytes = [] then (.fail .truncatedFrame : Net IntentError Bytes)
        else readExact u fuel (bytes.length + 1 - (b :: bytes).length)
          ([] ++ b :: bytes)).Reaches [] (.ret (b :: bytes))
      rw [if_neg (List.cons_ne_nil _ _), List.length_cons, Nat.sub_self, List.nil_append]
      cases fuel <;> exact Prog.Reaches.here _

theorem writeFrame_returns_once (hne : payload ≠ []) (hlength : payload.length ≤ MAX_FRAME_BYTES) :
    (writeFrame u payload).Returns
      [⟨.write u (toBeBytes payload.length), .ok (Fin.last 4)⟩,
        ⟨.write u payload, .ok (Fin.last payload.length)⟩] () := by
  rw [writeFrame_of_le hlength]
  obtain ⟨count, hcount⟩ := Nat.exists_eq_succ_of_ne_zero (List.length_pos_iff.2 hne).ne'
  have hheader : toBeBytes payload.length ≠ [] := List.cons_ne_nil _ _
  refine Prog.bind_returns_iff.2 ⟨[_], (), [_], writeAll_returns_once hheader 3, ?_, rfl⟩
  have hpayload := writeAll_returns_once (u := u) hne count
  rwa [← Nat.succ_eq_add_one, ← hcount] at hpayload

theorem readFrame_returns_once (hne : payload ≠ []) (hlength : payload.length ≤ MAX_FRAME_BYTES)
    (hparse : fromSlice payload = some a) :
    (readFrame u fromSlice).Returns
      [⟨.read u 4, .ok ⟨toBeBytes payload.length, le_refl 4⟩⟩,
        ⟨.read u payload.length, .ok ⟨payload, le_refl _⟩⟩] a := by
  have hmax : MAX_FRAME_BYTES < 2 ^ 32 := by decide
  have hnumber : fromBeBytes (toBeBytes payload.length) = payload.length :=
    fromBeBytes_toBeBytes (by omega)
  obtain ⟨count, hcount⟩ := Nat.exists_eq_succ_of_ne_zero (List.length_pos_iff.2 hne).ne'
  have hheader : toBeBytes payload.length ≠ [] := List.cons_ne_nil _ _
  refine Prog.bind_returns_iff.2 ⟨[_], _, [_], readExact_returns_once hheader 3, ?_, rfl⟩
  refine Prog.bind_returns_iff.2 ⟨[], (), [_], ?_, ?_, rfl⟩
  · rw [Prog.ensure_returns_iff, hnumber]
    exact ⟨rfl, decide_eq_true hlength⟩
  · rw [hnumber]
    have hpayload := readExact_returns_once (u := u) hne count
    rw [← Nat.succ_eq_add_one, ← hcount] at hpayload
    refine Prog.bind_returns_iff.2 ⟨[_], _, [], hpayload, ?_, rfl⟩
    exact Prog.ofExcept_returns_iff.2 ⟨rfl, Checks.okOr_eq_ok_iff.2 hparse⟩

end Frames

end Callback

/-! ### The length of a document -/

/-- The bytes of an endpoint are copied. -/
theorem EndpointId.isPlain (endpoint : EndpointId) :
    ∀ b ∈ Text.asBytes endpoint.asStr, Json.IsPlain b := by
  have hhex : ∀ b : UInt8, isLowerHex b = true → Json.IsPlain b := by decide +kernel
  intro b hb
  exact hhex b (List.all_eq_true.1 endpoint.canonical.2 b hb)

theorem EndpointId.escapedLength (endpoint : EndpointId) :
    Json.escapedLength endpoint.asStr = 32 := by
  rw [Json.escapedLength_of_isPlain endpoint.isPlain, endpoint.canonical.1]
  rfl

/-- The characters of a letter or a digit are copied. -/
theorem isPlain_of_isAlphanum {c : Char} (h : c.isAlphanum = true) :
    c.toNat < 128 ∧ Json.IsPlain (Text.asciiByte c) := by
  have hrange : 48 ≤ c.toNat ∧ c.toNat ≤ 57 ∨ 65 ≤ c.toNat ∧ c.toNat ≤ 90 ∨
      97 ≤ c.toNat ∧ c.toNat ≤ 122 := by
    simp only [Char.isAlphanum, Char.isAlpha, Char.isUpper, Char.isLower, Char.isDigit,
      Bool.or_eq_true, Bool.and_eq_true, decide_eq_true_eq, ge_iff_le, UInt32.le_iff_toNat_le] at h
    have hval : c.val.toNat = c.toNat := rfl
    simp only [hval] at h
    have hupper : 'A'.val.toNat = 65 ∧ 'Z'.val.toNat = 90 := ⟨rfl, rfl⟩
    have hlower : 'a'.val.toNat = 97 ∧ 'z'.val.toNat = 122 := ⟨rfl, rfl⟩
    have hdigit : '0'.val.toNat = 48 ∧ '9'.val.toNat = 57 := ⟨rfl, rfl⟩
    omega
  have hplain : ∀ n < 128, 48 ≤ n ∧ n ≤ 57 ∨ 65 ≤ n ∧ n ≤ 90 ∨ 97 ≤ n ∧ n ≤ 122 →
      Json.IsPlain (UInt8.ofNat n) := by decide
  exact ⟨by omega, hplain c.toNat (by omega) hrange⟩

/-- The text of an encoding is copied. -/
theorem isPlain_encode (b64 : Base64.CanonicalCodec) (bytes : Bytes) :
    ∀ b ∈ Text.asBytes (b64.encode bytes), Json.IsPlain b := by
  have hascii : ∀ b, Json.IsPlain b → b.toNat < 128 := fun b hb => hb.2.1
  refine (Text.forall_mem_asBytes_iff hascii _).2 fun c hc => ?_
  rcases b64.url_safe bytes c hc with h | rfl | rfl
  · exact isPlain_of_isAlphanum h
  · decide
  · decide

theorem OpenIntentV1.length_toVec (intent : OpenIntentV1) :
    intent.toVec.length = 120 + Json.escapedLength intent.schema +
      Json.escapedLength intent.target.encoding.name + Json.escapedLength intent.target.value := by
  have hnames : Json.escapedLength "schema" = 6 ∧ Json.escapedLength "endpoint" = 8 ∧
      Json.escapedLength "action" = 6 ∧ Json.escapedLength "target" = 6 ∧
      Json.escapedLength "encoding" = 8 ∧ Json.escapedLength "value" = 5 := by decide
  have haction : Json.escapedLength intent.action.name = 13 := by
    cases intent.action
    rfl
  simp [OpenIntentV1.toVec, EncodedPathV1.toVec, Json.object, Json.member, List.intercalate,
    Json.length_string, intent.endpoint.escapedLength, haction, hnames]
  omega

/-- **A valid intent fits a frame.** -/
theorem OpenIntentV1.length_toVec_le {b64 : Base64.CanonicalCodec} {intent : OpenIntentV1}
    (h : intent.validatePortable b64 = .ok ()) :
    intent.toVec.length ≤ MAX_FRAME_BYTES := by
  obtain ⟨bytes, hbytes, -⟩ := Checks.bind_eq_ok_iff.1 h
  obtain ⟨_, hschema, hrest⟩ := Checks.bind_eq_ok_iff.1 hbytes
  obtain ⟨decoded, hdecoded, hchecked⟩ := Checks.bind_eq_ok_iff.1 hrest
  obtain ⟨_, hvalid, -⟩ := Checks.bind_eq_ok_iff.1 hchecked
  have hfixed : Json.escapedLength intent.schema = 35 := by
    rw [Checks.ensure_eq_ok_iff, beq_iff_eq] at hschema
    rw [hschema]
    rfl
  have hencoding : Json.escapedLength intent.target.encoding.name ≤ 23 := by
    cases intent.target.encoding <;> decide
  have hvalue : Json.escapedLength intent.target.value ≤ 21848 := by
    have hencode := b64.encode_of_decode _ _ (Checks.okOr_eq_ok_iff.1 hdecoded)
    obtain ⟨-, hlength, -⟩ := OpenIntentV1.validateTargetBytes_eq_ok_iff.1 hvalid
    rw [← hencode, Json.escapedLength_of_isPlain (isPlain_encode b64 decoded)]
    have hle := b64.length_encode_le decoded
    rw [MAX_TARGET_BYTES] at hlength
    omega
  rw [intent.length_toVec, MAX_FRAME_BYTES]
  omega

/-! ### What can be sent -/

namespace Callback

open Sockets (Event Stream readsOf writesOf)

/-- A write loop fails with the failure of a call. -/
theorem writeAll_fails {u : Stream} {fuel : ℕ} {bytes : Bytes} {events : List Event}
    {error : IntentError} (h : (writeAll u fuel bytes).Reaches events (.fail error)) :
    ∃ message, error = .io message := by
  induction fuel generalizing bytes events with
  | zero =>
      cases bytes with
      | nil => cases (Prog.ret_reaches_iff.1 h).2
      | cons b bytes => cases (Prog.unfinished_reaches_iff.1 h).2
  | succ fuel ih =>
      cases bytes with
      | nil => cases (Prog.ret_reaches_iff.1 h).2
      | cons b bytes =>
          rcases Prog.perform_reaches_iff.1 h with ⟨-, hleft⟩ | ⟨answer, rest, rfl, hrest⟩
          · cases hleft
          · cases answer with
            | error message =>
                obtain ⟨-, herror⟩ := Prog.fail_reaches_iff.1 hrest
                exact ⟨message, Prog.fail.inj herror⟩
            | ok count =>
                change (if count.val = 0 then
                  (.fail (.io "failed to write whole buffer") : Sockets.Net IntentError Unit)
                  else writeAll u fuel ((b :: bytes).drop count.val)).Reaches rest
                    (.fail error) at hrest
                split_ifs at hrest
                · obtain ⟨-, herror⟩ := Prog.fail_reaches_iff.1 hrest
                  exact ⟨_, Prog.fail.inj herror⟩
                · exact ih hrest

/-- What fits a frame is not too large. -/
theorem writeFrame_fails {u : Stream} {payload : Bytes} {events : List Event} {error : IntentError}
    (hlength : payload.length ≤ MAX_FRAME_BYTES)
    (h : (writeFrame u payload).Reaches events (.fail error)) : ∃ message, error = .io message := by
  rw [writeFrame_of_le hlength] at h
  have hends : (writeAll u 4 (toBeBytes payload.length) >>= fun _ =>
      writeAll u payload.length payload).Ends events (.error error) := h
  rcases Prog.bind_ends_iff.1 hends with ⟨error', hfirst, herror⟩ | ⟨e₁, a, e₂, -, hsecond, rfl⟩
  · obtain rfl := Except.error.inj herror
    exact writeAll_fails hfirst
  · exact writeAll_fails hsecond

/-- **Valid intents travel in frames.**  They are never too large to be written.  From what was
written, and whatever comes after it, exactly the same intents are read under every splitting of the
stream, and exactly these bytes are consumed.  A part of a frame is never read as an intent: where
the stream ends there, the reader says so.  And of a frame that announces more than 65536 bytes only
the header is read. -/
theorem frames_carry_intents (b64 : Base64.CanonicalCodec) (json : CallbackJson) (u v : Stream)
    (intents : List OpenIntentV1)
    (h : ∀ intent ∈ intents, intent.validatePortable b64 = .ok ()) :
    (∀ intent ∈ intents, ∀ events left, (writeFrame u intent.toVec).Reaches events left →
      left ≠ .fail .frameTooLarge) ∧
    (∀ events, (writeFrames u (intents.map OpenIntentV1.toVec)).Returns events () → ∀ tail,
      Reading v (fun r rest => r = .ok intents ∧ rest = tail) (writesOf u events ++ tail)
        (readFrames v json.intent intents.length)) ∧
    (∀ intent ∈ intents, ∀ part, part <+: frame intent.toVec → part ≠ frame intent.toVec →
      Reading v (fun r rest => r = .error .truncatedFrame ∧ rest = []) part
          (readFrame v json.intent) ∧
        ∀ events read, readsOf v events = part → ¬ (readFrame v json.intent).Returns events read) ∧
    ∀ header rest : Bytes, header.length = 4 → 65536 < fromBeBytes header →
      Reading v (fun r left => r = .error .frameTooLarge ∧ left = rest) (header ++ rest)
        (readFrame v json.intent) := by
  have hlength : ∀ intent ∈ intents, intent.toVec.length ≤ MAX_FRAME_BYTES :=
    fun intent hintent => OpenIntentV1.length_toVec_le (h intent hintent)
  refine ⟨?_, ?_, ?_, ?_⟩
  · rintro intent hintent events left hrun rfl
    obtain ⟨message, herror⟩ := writeFrame_fails (hlength intent hintent) hrun
    cases herror
  · intro events hwritten tail
    rw [writeFrames_returns hwritten]
    exact readFrames_reading hlength json.intent_toVec tail
  · intro intent hintent part hpart hne
    refine ⟨readFrame_reading.imp fun r rest hpost => ?_, fun events read hreads hreturns => ?_⟩
    · rw [parseFrame_part (hlength intent hintent) hpart hne] at hpost
      exact Prod.mk.inj hpost
    · -- what is read with a frame is a frame, and no part of another one
      obtain ⟨payload, hpayload, -, hframe⟩ := readFrame_returns hreturns
      have hmax : MAX_FRAME_BYTES < 2 ^ 32 := by decide
      obtain ⟨more, hmore⟩ := hpart
      have hintentLength := hlength intent hintent
      rw [← hreads, hframe, ← List.append_nil (frame intent.toVec)] at hmore
      obtain ⟨rfl, -⟩ := frame_append_inj (by omega) (by omega) hmore
      exact hne (hreads.symm.trans hframe)
  · intro header rest hheader hlarge
    refine readFrame_reading.imp fun r left hpost => ?_
    rw [parseFrame_of_lt hheader hlarge] at hpost
    exact Prod.mk.inj hpost

/-- An intent for `/tmp/a` and one for `C:\\a`. -/
def sampleIntents : List OpenIntentV1 :=
  [OpenIntentV1.ofTarget Base64.urlSafeNoPad sampleEndpoint (Text.asBytes "/tmp/a"),
    ⟨OPEN_INTENT_SCHEMA_V1, sampleEndpoint, .openArtifact,
      ⟨.utf8Base64urlV1, Base64.urlSafeNoPad.encode (Text.asBytes "C:\\a")⟩⟩]

/-- Two intents travel in frames, and a frame that announces 65537 bytes is refused. -/
theorem frames_carry_intents_two :
    Reading (Sockets.serverEnd 0) (fun r left => r = .error .frameTooLarge ∧ left = [0x7B])
        [0, 1, 0, 1, 0x7B] (readFrame (Sockets.serverEnd 0) parsedJson.callbackJson.intent) ∧
      ∀ events, (writeFrames (Sockets.clientEnd 0)
          (sampleIntents.map OpenIntentV1.toVec)).Returns events () →
        Reading (Sockets.serverEnd 0) (fun r rest => r = .ok sampleIntents ∧ rest = [])
          (writesOf (Sockets.clientEnd 0) events)
          (readFrames (Sockets.serverEnd 0) parsedJson.callbackJson.intent 2) := by
  obtain ⟨-, hread, -, hlarge⟩ := frames_carry_intents Base64.urlSafeNoPad parsedJson.callbackJson
    (Sockets.clientEnd 0) (Sockets.serverEnd 0) sampleIntents (by decide)
  refine ⟨hlarge [0, 1, 0, 1] [0x7B] rfl (by decide), fun events hwritten => ?_⟩
  have hall := hread events hwritten []
  rwa [List.append_nil] at hall

/-! ### Receipts -/

/-- **A receipt that can be sent**: it is not too large to be written, and from what was written it
is read back under every splitting of the stream. -/
structure Sendable (json : CallbackJson) (receipt : IntentReceiptV1) : Prop where
  fits : ∀ u events left, (writeFrame u receipt.toVec).Reaches events left →
    left ≠ .fail .frameTooLarge
  back : ∀ u events, (writeFrame u receipt.toVec).Returns events () → ∀ v tail,
    Reading v (fun r rest => r = .ok receipt ∧ rest = tail) (writesOf u events ++ tail)
      (readFrame v json.receipt)

end Callback

theorem IntentReceiptV1.validate_eq_ok_iff {receipt : IntentReceiptV1} :
    receipt.validate = .ok () ↔ receipt.schema = INTENT_RECEIPT_SCHEMA_V1 ∧
      Text.asBytes receipt.detail ≠ [] ∧
      (Text.asBytes receipt.detail).length ≤ MAX_FRAME_BYTES := by
  simp [IntentReceiptV1.validate, Checks.bind_eq_ok_iff, Checks.ensure_eq_ok_iff]

theorem IntentReceiptV1.length_toVec (receipt : IntentReceiptV1) :
    receipt.toVec.length = 82 + Json.escapedLength receipt.schema +
      Json.escapedLength receipt.state.name + Json.escapedLength receipt.detail := by
  have hnames : Json.escapedLength "schema" = 6 ∧ Json.escapedLength "endpoint" = 8 ∧
      Json.escapedLength "state" = 5 ∧ Json.escapedLength "detail" = 6 := by decide
  simp [IntentReceiptV1.toVec, Json.object, Json.member, List.intercalate, Json.length_string,
    receipt.endpoint.escapedLength, hnames]
  omega

namespace Callback

/-- **Which valid receipts can be sent**: those whose detail, as it is escaped, leaves room for the
other members. -/
theorem receipt_sendable_iff (json : CallbackJson) (receipt : IntentReceiptV1)
    (h : receipt.validate = .ok ()) :
    Sendable json receipt ↔
      Json.escapedLength receipt.detail ≤
        match receipt.state with
        | .forwarded => 65407
        | .rejected => 65408 := by
  have hschema : Json.escapedLength receipt.schema = 38 := by
    rw [(IntentReceiptV1.validate_eq_ok_iff.1 h).1]
    rfl
  have hstate : Json.escapedLength receipt.state.name =
      match receipt.state with
      | .forwarded => 9
      | .rejected => 8 := by
    cases receipt.state <;> rfl
  have hfits : receipt.toVec.length ≤ MAX_FRAME_BYTES ↔ Json.escapedLength receipt.detail ≤
      match receipt.state with
      | .forwarded => 65407
      | .rejected => 65408 := by
    rw [receipt.length_toVec, hschema, hstate, MAX_FRAME_BYTES]
    cases receipt.state <;> simp only <;> omega
  rw [← hfits]
  constructor
  · intro hsendable
    by_contra hlarge
    refine hsendable.fits (Sockets.clientEnd 0) [] (.fail .frameTooLarge) ?_ rfl
    rw [writeFrame_of_lt (Nat.lt_of_not_le hlarge)]
    exact Prog.Reaches.here _
  · intro hlength
    refine ⟨?_, fun u events hwritten v tail => ?_⟩
    · rintro u events left hrun rfl
      obtain ⟨message, herror⟩ := writeFrame_fails hlength hrun
      cases herror
    · rw [(writeFrame_returns hwritten).2]
      refine readFrame_reading.imp fun r rest hpost => ?_
      rw [parseFrame_frame hlength (json.receipt_toVec receipt)] at hpost
      exact Prod.mk.inj hpost

/-- The receipt that says `forwarded` can be sent. -/
theorem receipt_sendable_iff_forwarded :
    Sendable parsedJson.callbackJson (IntentReceiptV1.forwarded sampleEndpoint) :=
  (receipt_sendable_iff parsedJson.callbackJson
    (IntentReceiptV1.forwarded sampleEndpoint) (by rfl)).2 (by decide)

/-- A rejection whose detail has 65536 bytes is valid, and cannot be sent. -/
theorem long_receipt_not_sendable :
    ∃ receipt : IntentReceiptV1, receipt.validate = .ok () ∧
      ¬ Sendable parsedJson.callbackJson receipt := by
  have hascii : ∀ c ∈ (String.ofList (List.replicate 65536 'a')).toList, c.toNat < 128 := by
    intro c hc
    rw [String.toList_ofList] at hc
    rw [List.eq_of_mem_replicate hc]
    decide
  have hlength : (Text.asBytes (String.ofList (List.replicate 65536 'a'))).length = 65536 := by
    rw [Text.length_asBytes_of_ascii hascii, String.toList_ofList, List.length_replicate]
  refine ⟨.rejected sampleEndpoint (String.ofList (List.replicate 65536 'a')), ?_, ?_⟩
  · refine IntentReceiptV1.validate_eq_ok_iff.2 ⟨rfl, ?_, Nat.le_of_eq hlength⟩
    rw [← List.length_pos_iff, IntentReceiptV1.rejected, hlength]
    decide
  · intro hsendable
    refine hsendable.fits (Sockets.clientEnd 0) [] (.fail .frameTooLarge) ?_ rfl
    rw [writeFrame_of_lt]
    · exact Prog.Reaches.here _
    · rw [IntentReceiptV1.length_toVec, MAX_FRAME_BYTES]
      have hdetail := Json.length_le_escape
        (Text.asBytes (String.ofList (List.replicate 65536 'a')))
      rw [hlength] at hdetail
      have hescaped : 65536 ≤ Json.escapedLength (IntentReceiptV1.rejected sampleEndpoint
          (String.ofList (List.replicate 65536 'a'))).detail := hdetail
      omega

end Callback

end TermInterop
