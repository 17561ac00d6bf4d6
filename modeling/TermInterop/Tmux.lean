/-
The tmux transport: passthrough framing.

A request is carried through tmux in a device control string in which every escape byte is doubled.
`unwrap` is the receiving side, which undoes the doubling up to the terminator; it stands for what
tmux does with a frame, and `unwrap_wrapPassthrough` says that the terminal behind tmux receives
the request itself.

A receiver that does not know where a frame ends finds its end by itself.  `decodePassthrough` reads
byte after byte and remembers only whether the last one was an escape byte whose meaning is still
open; it returns what follows the frame, whatever that is.

Main definitions:

* `TermInterop.Tmux.wrapPassthrough`, `TermInterop.Tmux.buildReadinessQuery` — the sending side;
* `TermInterop.Tmux.unwrap` — the receiving side;
* `TermInterop.Tmux.decodePassthrough` — the receiving side in a stream.

Main results:

* `TermInterop.Tmux.unwrap_wrapPassthrough` — **the terminal receives the request**;
* `TermInterop.Tmux.passthrough_self_delimiting` — **frames delimit themselves**.
-/

import TermInterop.Da1

set_option relaxedAutoImplicit false
set_option autoImplicit false

namespace TermInterop

namespace Tmux

/-- Adapter implementation version. -/
def ADAPTER_VERSION : String := "0.1.0"

/-- Identity of the tmux transport adapter. -/
def adapterIdentity : AdapterIdentity := ⟨"tmux-dcs-passthrough", ADAPTER_VERSION⟩

/-- The payload with every escape byte doubled. -/
def escape (payload : Bytes) : Bytes :=
  payload.flatMap fun byte => if byte = ESC then [ESC, byte] else [byte]

/-- The first bytes of a passthrough frame. -/
def intro : Bytes := Text.asBytes "\x1bPtmux;"

/-- The last bytes of a passthrough frame. -/
def terminator : Bytes := Text.asBytes "\x1b\\"

/-- **Wrap arbitrary terminal-protocol bytes in passthrough framing.** -/
def wrapPassthrough (payload : Bytes) : Bytes := intro ++ escape payload ++ terminator

/-- A passthrough-wrapped readiness query. -/
def buildReadinessQuery : Bytes := wrapPassthrough (Text.asBytes "\x1b[c")

/-! ### The receiving side -/

/-- Undo the doubling up to the terminator, which must end the frame. -/
def unescape : Bytes → Option Bytes
  | [] => none
  | [_] => none
  | b :: b' :: rest =>
      if b = ESC then
        if b' = ESC then (unescape rest).map (ESC :: ·)
        else if b' = ascii '\\' ∧ rest = [] then some []
        else none
      else (unescape (b' :: rest)).map (b :: ·)

/-- The payload of a passthrough frame. -/
def unwrap (frame : Bytes) : Option Bytes :=
  if intro <+: frame then unescape (frame.drop intro.length) else none

theorem unescape_escape (payload : Bytes) :
    unescape (escape payload ++ terminator) = some payload := by
  induction payload with
  | nil => rfl
  | cons byte payload ih =>
      by_cases hbyte : byte = ESC
      · subst hbyte
        have hdouble : escape (ESC :: payload) ++ terminator =
            ESC :: ESC :: (escape payload ++ terminator) := rfl
        rw [hdouble, unescape, if_pos rfl, if_pos rfl, ih]
        rfl
      · have hsingle : escape (byte :: payload) ++ terminator =
            byte :: (escape payload ++ terminator) := by
          simp [escape, hbyte]
        rw [hsingle]
        obtain ⟨b', rest, hrest⟩ : ∃ b' rest, escape payload ++ terminator = b' :: rest :=
          List.exists_cons_of_ne_nil (by simp [terminator, Text.asBytes])
        rw [hrest, unescape, if_neg hbyte, ← hrest, ih]
        rfl

/-- **The terminal receives the request.** -/
@[simp] theorem unwrap_wrapPassthrough (payload : Bytes) :
    unwrap (wrapPassthrough payload) = some payload := by
  rw [unwrap, wrapPassthrough, List.append_assoc, if_pos (List.prefix_append _ _),
    List.drop_left, unescape_escape]

/-! ### The receiving side in a stream -/

/-- The payload up to the terminator, and what follows it.  The flag says that the last byte was an
escape byte that is not yet the second half of a doubled one. -/
def decodeFrom : Bool → Bytes → Option (Bytes × Bytes)
  | _, [] => none
  | false, b :: bytes =>
      if b = ESC then decodeFrom true bytes
      else (decodeFrom false bytes).map fun decoded => (b :: decoded.1, decoded.2)
  | true, b :: bytes =>
      if b = ESC then (decodeFrom false bytes).map fun decoded => (ESC :: decoded.1, decoded.2)
      else if b = ascii '\\' then some ([], bytes)
      else none

/-- The payload of the passthrough frame at the beginning of a stream, and what follows the
frame. -/
def decodePassthrough (input : Bytes) : Option (Bytes × Bytes) :=
  if intro <+: input then decodeFrom false (input.drop intro.length) else none

/-- What is decoded stays when more bytes arrive. -/
theorem decodeFrom_append {escaped : Bool} {input payload rest : Bytes}
    (h : decodeFrom escaped input = some (payload, rest)) (more : Bytes) :
    decodeFrom escaped (input ++ more) = some (payload, rest ++ more) := by
  induction input generalizing escaped payload with
  | nil => cases escaped <;> cases h
  | cons b input ih =>
      cases escaped with
      | false =>
          rw [decodeFrom] at h
          rw [List.cons_append, decodeFrom]
          split_ifs at h ⊢ with hb
          · exact ih h
          · obtain ⟨⟨decoded, rest'⟩, hdecoded, heq⟩ := Option.map_eq_some_iff.1 h
            obtain ⟨rfl, rfl⟩ := Prod.mk.inj heq
            rw [ih hdecoded]
            rfl
      | true =>
          rw [decodeFrom] at h
          rw [List.cons_append, decodeFrom]
          split_ifs at h ⊢ with hb hend
          · obtain ⟨⟨decoded, rest'⟩, hdecoded, heq⟩ := Option.map_eq_some_iff.1 h
            obtain ⟨rfl, rfl⟩ := Prod.mk.inj heq
            rw [ih hdecoded]
            rfl
          · obtain ⟨rfl, rfl⟩ := Prod.mk.inj (Option.some.inj h)
            rfl

theorem decodePassthrough_append {input payload rest : Bytes}
    (h : decodePassthrough input = some (payload, rest)) (more : Bytes) :
    decodePassthrough (input ++ more) = some (payload, rest ++ more) := by
  unfold decodePassthrough at h ⊢
  split_ifs at h with hintro
  obtain ⟨tail, rfl⟩ := hintro
  rw [List.drop_left] at h
  rw [if_pos ((List.prefix_append _ _).trans (List.prefix_append _ _)), List.append_assoc,
    List.drop_left]
  exact decodeFrom_append h more

/-- Decoding undoes the doubling: every escape byte of the payload opens a pair, whatever follows,
and the escape byte of the terminator is not the second half of one. -/
theorem decodeFrom_escape (payload rest : Bytes) :
    decodeFrom false (escape payload ++ (terminator ++ rest)) = some (payload, rest) := by
  induction payload with
  | nil => rfl
  | cons byte payload ih =>
      by_cases hbyte : byte = ESC
      · subst hbyte
        have hdouble : escape (ESC :: payload) ++ (terminator ++ rest) =
            ESC :: ESC :: (escape payload ++ (terminator ++ rest)) := rfl
        rw [hdouble, decodeFrom, if_pos rfl, decodeFrom, if_pos rfl, ih]
        rfl
      · have hsingle : escape (byte :: payload) ++ (terminator ++ rest) =
            byte :: (escape payload ++ (terminator ++ rest)) := by
          simp [escape, hbyte]
        rw [hsingle, decodeFrom, if_neg hbyte, ih]
        rfl

theorem decodePassthrough_wrapPassthrough (payload rest : Bytes) :
    decodePassthrough (wrapPassthrough payload ++ rest) = some (payload, rest) := by
  rw [decodePassthrough, wrapPassthrough, List.append_assoc, List.append_assoc,
    if_pos (List.prefix_append _ _), List.drop_left, decodeFrom_escape]

/-- **Frames delimit themselves.**  A receiver in a stream finds the payload and what follows the
frame; so the payload is determined by the frame, no frame begins with another one, and no part of a
frame is taken for a frame. -/
theorem passthrough_self_delimiting :
    (∀ payload rest : Bytes,
      decodePassthrough (wrapPassthrough payload ++ rest) = some (payload, rest)) ∧
    Function.Injective wrapPassthrough ∧
    (∀ payload payload' : Bytes, wrapPassthrough payload <+: wrapPassthrough payload' →
      wrapPassthrough payload = wrapPassthrough payload') ∧
    ∀ payload part : Bytes, part <+: wrapPassthrough payload → part ≠ wrapPassthrough payload →
      decodePassthrough part = none := by
  have hwhole : ∀ payload, decodePassthrough (wrapPassthrough payload) = some (payload, []) := by
    intro payload
    have h := decodePassthrough_wrapPassthrough payload []
    rwa [List.append_nil] at h
  refine ⟨decodePassthrough_wrapPassthrough, ?_, ?_, ?_⟩
  · intro payload payload' h
    have hdecoded := hwhole payload
    rw [h, hwhole] at hdecoded
    exact (Prod.mk.inj (Option.some.inj hdecoded)).1.symm
  · intro payload payload' ⟨rest, hrest⟩
    have hdecoded := decodePassthrough_wrapPassthrough payload rest
    rw [hrest, hwhole] at hdecoded
    obtain ⟨rfl, rfl⟩ := Prod.mk.inj (Option.some.inj hdecoded)
    rfl
  · intro payload part ⟨more, hmore⟩ hne
    rw [Option.eq_none_iff_forall_ne_some]
    intro ⟨decoded, rest⟩ hdecoded
    -- the end that was found would be the end of the whole frame
    have hlonger := decodePassthrough_append hdecoded more
    rw [hmore, hwhole] at hlonger
    obtain ⟨-, hrest⟩ := Prod.mk.inj (Option.some.inj hlonger)
    obtain ⟨-, rfl⟩ := List.append_eq_nil_iff.1 hrest.symm
    exact hne (by rw [← hmore, List.append_nil])

end Tmux

end TermInterop
