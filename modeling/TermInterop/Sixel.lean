/-
The Sixel adapter: Sixel support is advertised in the primary device attributes.

There is no Sixel reply of its own.  The query is the DA1 query, every reply counts as a capability
reply, and the assessment only asks whether there is one and whether one advertises extension 4.

Main definitions:

* `TermInterop.Sixel.parseExchange` — the events of a stream and their assessment.

Main results:

* `TermInterop.Sixel.sequence_parseExchange` — the events are numbered in order;
* `TermInterop.Sixel.isBase64_parseExchange` — their bytes are Base64.
-/

import TermInterop.Da1

set_option relaxedAutoImplicit false
set_option autoImplicit false

namespace TermInterop

/-- The events of the replies of a stream, all in one role: `enumerate` and `try_from`. -/
def enumerateEvents (role : WireEventRole) (responses : List Da1.Da1Response) : List WireEvent :=
  responses.mapIdx fun sequence response => response.wireEvent (u32FromIndex sequence) role

section Enumerate

variable {b64 : Base64.Codec} {role : WireEventRole} {responses : List Da1.Da1Response}

theorem sequence_enumerateEvents {index : ℕ} {event : WireEvent}
    (h : (enumerateEvents role responses)[index]? = some event) :
    event.sequence = u32FromIndex index := by
  rw [enumerateEvents, List.getElem?_mapIdx, Option.map_eq_some_iff] at h
  obtain ⟨response, -, rfl⟩ := h
  rfl

/-- The bytes of every reply of a stream are Base64. -/
theorem isBase64_enumerateEvents {input : Bytes} {event : WireEvent}
    (h : event ∈ enumerateEvents role (Da1.parseResponses b64 input)) :
    IsBase64 b64 event.rawBase64 := by
  rw [enumerateEvents, List.mem_mapIdx] at h
  obtain ⟨index, hindex, rfl⟩ := h
  obtain ⟨offset, next, hfind⟩ :=
    ScanLoop.getElem?_scanFrom () 0 index _ (List.getElem?_eq_getElem hindex)
  obtain ⟨response, hresponse, heq⟩ := Option.map_eq_some_iff.1 hfind
  obtain ⟨run, rest, parameters, -, -, -, -, rfl⟩ := Da1.parseResponseAt_eq_some_iff.1 hresponse
  rw [← (Prod.mk.inj heq).1]
  exact isBase64_encode b64 _

end Enumerate

namespace Sixel

/-- DA1 extension identifier assigned to Sixel graphics. -/
def SIXEL_DA1_EXTENSION : UInt16 := 4

/-- Adapter implementation version. -/
def ADAPTER_VERSION : String := "0.1.0"

/-- Parsed Sixel capability exchange. -/
structure ParsedExchange where
  events : List WireEvent
  assessment : Assessment
  responseSeen : Bool
  sixelAdvertised : Bool

/-- Sixel protocol identity used by this profile. -/
def protocolId : ProtocolId := ⟨"org.dec", "sixel-raster-graphics", "da1-extension-4-v1"⟩

/-- Capability identity established by a DA1 response. -/
def capabilityId : CapabilityId := ⟨protocolId, "raster-image-display"⟩

/-- Identity of this adapter implementation. -/
def adapterIdentity : AdapterIdentity := ⟨"terminal-interop-sixel", ADAPTER_VERSION⟩

/-- The standard DA1 query used to discover Sixel advertisement. -/
def buildQuery : Bytes := Da1.buildQuery

/-- One assertion result. -/
def assertion (id : String) (outcome : AssertionOutcome) (detail : String) : AssertionResult :=
  ⟨id, outcome, detail⟩

/-- **Parse a DA1 response and assess whether Sixel is advertised.** -/
def parseExchange (b64 : Base64.Codec) (input : Bytes) : ParsedExchange :=
  let responses := Da1.parseResponses b64 input
  let responseSeen := !responses.isEmpty
  let sixelAdvertised := responses.any fun response => response.advertises SIXEL_DA1_EXTENSION
  let assessment : Assessment :=
    if sixelAdvertised then
      ⟨.available, .conformant,
        [assertion "sixel.da1.response" .pass
            "a valid primary device attributes response was observed",
          assertion "sixel.da1.extension-4" .pass
            "the response advertised Sixel extension identifier 4"]⟩
    else if responseSeen then
      ⟨.unavailable, .notApplicable,
        [assertion "sixel.da1.response" .pass
            "a valid primary device attributes response was observed",
          assertion "sixel.da1.extension-4" .notApplicable
            "the response did not advertise Sixel extension identifier 4"]⟩
    else
      ⟨.unknown, .inconclusive,
        [assertion "sixel.da1.response" .unknown
            "no complete primary device attributes response was observed",
          assertion "sixel.da1.extension-4" .unknown
            "Sixel advertisement cannot be evaluated without a DA1 response"]⟩
  { events := enumerateEvents .capabilityReply responses
    assessment := assessment
    responseSeen := responseSeen
    sixelAdvertised := sixelAdvertised }

/-- **The events are numbered in order**, up to the greatest number. -/
theorem sequence_parseExchange {b64 : Base64.Codec} {input : Bytes} {index : ℕ} {event : WireEvent}
    (h : (parseExchange b64 input).events[index]? = some event) :
    event.sequence = u32FromIndex index :=
  sequence_enumerateEvents h

/-- The bytes of every event are Base64. -/
theorem isBase64_parseExchange {b64 : Base64.Codec} {input : Bytes} {event : WireEvent}
    (h : event ∈ (parseExchange b64 input).events) : IsBase64 b64 event.rawBase64 :=
  isBase64_enumerateEvents h

end Sixel

end TermInterop
