/-
JSON documents, the schemas that describe them, and readers of their members.

A document keeps of a number how it is spelled: with digits alone, with a minus sign before them, or
with a fraction or an exponent.  A schema does not care, as a number is an integer by its value; a
program that reads the document may.

The members of an object have an order in the document, but no meaning depends on it.

Main definitions:

* `Json.Document` — documents, with numbers as they are spelled;
* `Json.Schema`, `Json.Schema.accepts` — schemas, and which documents conform to them;
* `Json.Document.struct`, `Json.field`, `Json.variant` — readers for objects and for names.

Main results:

* `Json.exists_member_of_accepts`, `Json.name_mem_of_accepts` — what a schema says about the members
  of an object;
* `Json.struct_eq_some_iff`, `Json.perm_names` — what a reader of an object has checked.
-/

import Mathlib

set_option relaxedAutoImplicit false
set_option autoImplicit false

namespace Json

/-! ### Documents -/

/-- A number as it is spelled. -/
inductive Numeral
  /-- Digits alone. -/
  | natural (n : ℕ)
  /-- A minus sign and digits. -/
  | negated (n : ℕ)
  /-- A fraction or an exponent. -/
  | decimal (value : ℚ)
  deriving DecidableEq

/-- The number that is spelled. -/
def Numeral.value : Numeral → ℚ
  | natural n => n
  | negated n => -n
  | decimal value => value

inductive Document
  | null
  | boolean (b : Bool)
  | number (n : Numeral)
  | string (s : String)
  | array (items : List Document)
  | object (members : List (String × Document))

/-- The members of an object. -/
abbrev Members := List (String × Document)

/-- The value of a member; `null` when there is none. -/
def Document.get : Document → String → Document
  | .object members, name => (members.lookup name).getD .null
  | _, _ => .null

/-- The items of an array. -/
def Document.items : Document → List Document
  | .array items => items
  | _ => []

/-- How many members an object has. -/
def Document.size : Document → ℕ
  | .object members => members.length
  | _ => 0

theorem get_of_lookup {members : Members} {name : String} {d : Document}
    (h : members.lookup name = some d) : (Document.object members).get name = d := by
  rw [Document.get, h]
  rfl

theorem mem_of_lookup {members : Members} {name : String} {d : Document}
    (h : members.lookup name = some d) : (name, d) ∈ members := by
  induction members with
  | nil => cases h
  | cons m members ih =>
      obtain ⟨n, d'⟩ := m
      rw [List.lookup_cons] at h
      by_cases hn : name == n
      · rw [hn] at h
        obtain rfl := Option.some.inj h
        rw [beq_iff_eq.1 hn]
        exact List.mem_cons_self
      · rw [Bool.not_eq_true] at hn
        rw [hn] at h
        exact List.mem_cons_of_mem _ (ih h)

/-- Where no name comes twice, each member is found. -/
theorem lookup_of_mem {members : Members} (hnodup : (members.map Prod.fst).Nodup) {name : String}
    {d : Document} (h : (name, d) ∈ members) : members.lookup name = some d := by
  induction members with
  | nil => cases h
  | cons m members ih =>
      rw [List.map_cons, List.nodup_cons] at hnodup
      rw [List.lookup_cons]
      rcases List.mem_cons.1 h with rfl | hmem
      · simp
      · have hne : ¬ name = m.1 := by
          rintro rfl
          exact hnodup.1 (List.mem_map.2 ⟨_, hmem, rfl⟩)
        rw [beq_eq_false_iff_ne.2 hne]
        exact ih hnodup.2 hmem

theorem lookup_isSome_iff {members : Members} {name : String} :
    (members.lookup name).isSome ↔ name ∈ members.map Prod.fst := by
  induction members with
  | nil => simp
  | cons m members ih =>
      rw [List.lookup_cons, List.map_cons, List.mem_cons, ← ih]
      by_cases h : name = m.1
      · simp [h]
      · simp [h, beq_eq_false_iff_ne.2 h]

/-! ### Schemas -/

/-- The schemas that are used: `never` and `anything` are the schemas `false` and `true`, `natural`
is an integer with minimum zero, and `additional` is the schema of the members that are no
properties. -/
inductive Schema
  | never
  | anything
  | null
  | string
  | const (text : String)
  | natural
  | array (items : Schema)
  | object (properties : List (String × Schema)) (required : List String) (additional : Schema)
  | anyOf (options : List Schema)
  | oneOf (options : List Schema)

mutual

/-- **Whether a document conforms to a schema.**  In a document that conforms, no name of an object
comes twice. -/
def Schema.accepts : Schema → Document → Bool
  | .never, _ => false
  | .anything, _ => true
  | .null, .null => true
  | .string, .string _ => true
  | .const text, .string s => s = text
  | .natural, .number n => n.value.den = 1 ∧ 0 ≤ n.value
  | .array items, .array documents => documents.all fun d => items.accepts d
  | .object properties required additional, .object members =>
      decide (members.map Prod.fst).Nodup &&
        (required.all fun name => (members.lookup name).isSome) &&
          members.all fun m =>
            if m.1 ∈ properties.map Prod.fst then propertiesAccept properties m.1 m.2
            else additional.accepts m.2
  | .anyOf options, d => countAccepting options d ≠ 0
  | .oneOf options, d => countAccepting options d = 1
  | _, _ => false

/-- Whether the value of a member conforms to the property of its name. -/
def propertiesAccept : List (String × Schema) → String → Document → Bool
  | [], _, _ => true
  | (name, schema) :: properties, member, d =>
      (name ≠ member || schema.accepts d) && propertiesAccept properties member d

/-- To how many schemas a document conforms. -/
def countAccepting : List Schema → Document → ℕ
  | [], _ => 0
  | schema :: schemas, d => (if schema.accepts d then 1 else 0) + countAccepting schemas d

end

attribute [local simp] Schema.accepts

section Accepts

variable {properties : List (String × Schema)} {required : List String} {additional schema : Schema}
  {members : Members} {name : String} {d : Document}

theorem propertiesAccept_iff :
    propertiesAccept properties name d = true ↔
      ∀ schema, (name, schema) ∈ properties → schema.accepts d = true := by
  induction properties with
  | nil => simp [propertiesAccept]
  | cons p properties ih =>
      obtain ⟨n, s⟩ := p
      rw [propertiesAccept, Bool.and_eq_true, ih]
      by_cases hn : n = name
      · subst hn
        simp only [ne_eq, not_true_eq_false, decide_false, Bool.false_or, List.mem_cons,
          Prod.mk.injEq, true_and]
        constructor
        · rintro ⟨hs, hrest⟩ t (rfl | ht)
          · exact hs
          · exact hrest t ht
        · exact fun h => ⟨h s (Or.inl rfl), fun t ht => h t (Or.inr ht)⟩
      · simp [hn, Ne.symm hn]

/-- What conforms to the schema of an object is an object. -/
theorem exists_object_of_accepts (h : (Schema.object properties required additional).accepts d) :
    ∃ members, d = .object members := by
  cases d with
  | object members => exact ⟨members, rfl⟩
  | _ => simp [Schema.accepts] at h

theorem nodup_of_accepts
    (h : (Schema.object properties required additional).accepts (.object members)) :
    (members.map Prod.fst).Nodup := by
  rw [Schema.accepts, Bool.and_eq_true, Bool.and_eq_true] at h
  exact of_decide_eq_true h.1.1

/-- A member that is a property conforms to the schema of that property. -/
theorem accepts_of_lookup
    (h : (Schema.object properties required additional).accepts (.object members))
    (hproperty : (name, schema) ∈ properties) (hd : members.lookup name = some d) :
    schema.accepts d = true := by
  rw [Schema.accepts, Bool.and_eq_true, List.all_eq_true] at h
  have hmember := h.2 _ (mem_of_lookup hd)
  rw [if_pos (List.mem_map.2 ⟨_, hproperty, rfl⟩)] at hmember
  exact propertiesAccept_iff.1 hmember schema hproperty

/-- **A member that is required is there**, and conforms to its schema. -/
theorem exists_member_of_accepts (name : String)
    (h : (Schema.object properties required additional).accepts (.object members))
    (hrequired : name ∈ required) (hproperty : (name, schema) ∈ properties) :
    ∃ d, members.lookup name = some d ∧ schema.accepts d = true := by
  have hall := h
  rw [Schema.accepts, Bool.and_eq_true, Bool.and_eq_true, List.all_eq_true] at hall
  obtain ⟨d, hd⟩ := Option.isSome_iff_exists.1 (hall.1.2 name hrequired)
  exact ⟨d, hd, accepts_of_lookup h hproperty hd⟩

/-- A text that is required is there. -/
theorem exists_string_of_accepts (name : String)
    (h : (Schema.object properties required additional).accepts (.object members))
    (hrequired : name ∈ required) (hproperty : (name, .string) ∈ properties) :
    ∃ s, members.lookup name = some (.string s) := by
  obtain ⟨d, hd, haccepts⟩ := exists_member_of_accepts name h hrequired hproperty
  cases d with
  | string s => exact ⟨s, hd⟩
  | _ => simp [Schema.accepts] at haccepts

/-- **Only the properties are members** where no others are allowed. -/
theorem name_mem_of_accepts
    (h : (Schema.object properties required .never).accepts (.object members)) :
    ∀ m ∈ members, m.1 ∈ properties.map Prod.fst := by
  intro m hm
  rw [Schema.accepts, Bool.and_eq_true, List.all_eq_true] at h
  have hmember := h.2 m hm
  by_contra hnot
  rw [if_neg hnot, Schema.accepts] at hmember
  cases hmember

theorem eq_of_accepts_const {text : String} (h : (Schema.const text).accepts d) :
    d = .string text := by
  cases d with
  | string s => rw [of_decide_eq_true h]
  | _ => simp [Schema.accepts] at h

theorem exists_of_accepts_natural (h : Schema.natural.accepts d) : ∃ n, d = .number n := by
  cases d with
  | number n => exact ⟨n, rfl⟩
  | _ => simp [Schema.accepts] at h

theorem exists_of_accepts_array (h : (Schema.array schema).accepts d) :
    ∃ items, d = .array items ∧ ∀ item ∈ items, schema.accepts item = true := by
  cases d with
  | array items => exact ⟨items, rfl, by simpa [Schema.accepts] using h⟩
  | _ => simp [Schema.accepts] at h

/-- What conforms to one of two schemas conforms to the first or to the second. -/
theorem accepts_of_oneOf {first second : Schema} (h : (Schema.oneOf [first, second]).accepts d) :
    first.accepts d = true ∨ second.accepts d = true := by
  by_cases hfirst : first.accepts d = true
  · exact Or.inl hfirst
  · refine Or.inr (by_contra fun hsecond => ?_)
    simp [Schema.accepts, countAccepting, hfirst, hsecond] at h

end Accepts

/-! ### Readers -/

/-- A text. -/
def text : Document → Option String
  | .string s => some s
  | _ => none

@[simp] theorem text_string (s : String) : text (.string s) = some s := rfl

/-- One of some names, with what it stands for. -/
def variant {α : Type} (names : List (String × α)) (d : Document) : Option α :=
  (text d).bind fun name => names.lookup name

/-- An array. -/
def list {α : Type} (read : Document → Option α) : Document → Option (List α)
  | .array items => items.mapM read
  | _ => none

/-- `null`, or a value. -/
def nullable {α : Type} (read : Document → Option α) : Document → Option (Option α)
  | .null => some none
  | d => (read d).map some

/-- The members of an object that has no other names than these, and none of them twice. -/
def Document.struct (names : List String) : Document → Option Members
  | .object members =>
      if (members.map Prod.fst).Nodup ∧ ∀ m ∈ members, m.1 ∈ names then some members else none
  | _ => none

/-- A member that has to be there. -/
def field {α : Type} (members : Members) (name : String) (read : Document → Option α) : Option α :=
  (members.lookup name).bind read

/-- A member that may be missing. -/
def optionalField {α : Type} (members : Members) (name : String) (read : Document → Option α) :
    Option (Option α) :=
  match members.lookup name with
  | none => some none
  | some d => nullable read d

section Readers

variable {α : Type} {members : Members} {name : String} {names : List String} {d : Document} {a : α}
  {read : Document → Option α}

@[simp] theorem text_eq_some_iff {s : String} : text d = some s ↔ d = .string s := by
  cases d <;> simp [text]

theorem struct_eq_some_iff :
    d.struct names = some members ↔
      d = .object members ∧ (members.map Prod.fst).Nodup ∧ ∀ m ∈ members, m.1 ∈ names := by
  cases d with
  | object members' =>
      simp only [Document.struct, Option.ite_none_right_eq_some, Option.some.injEq,
        Document.object.injEq]
      constructor
      · rintro ⟨hmembers, rfl⟩
        exact ⟨rfl, hmembers⟩
      · rintro ⟨rfl, hmembers⟩
        exact ⟨hmembers, rfl⟩
  | _ => simp [Document.struct]

theorem field_eq_some_iff :
    field members name read = some a ↔ ∃ d, members.lookup name = some d ∧ read d = some a := by
  simp [field, Option.bind_eq_some_iff]

/-- A member that has to be there is read from its value. -/
theorem field_eq_get (hnull : read .null = none) :
    field members name read = read ((Document.object members).get name) := by
  rw [field, Document.get]
  cases members.lookup name with
  | none => exact hnull.symm
  | some d => rfl

/-- An array is read item by item. -/
theorem list_eq_some_iff {items : List Document} {as : List α} :
    list read (.array items) = some as ↔
      List.Forall₂ (fun item a => read item = some a) items as := by
  rw [list]
  induction items generalizing as with
  | nil => cases as <;> simp
  | cons item items ih =>
      rw [List.mapM_cons]
      simp only [Option.bind_eq_bind, Option.bind_eq_some_iff, Option.pure_def, Option.some.injEq]
      constructor
      · rintro ⟨a, ha, rest, hrest, rfl⟩
        exact List.Forall₂.cons ha (ih.1 hrest)
      · rintro (_ | ⟨ha, hrest⟩)
        exact ⟨_, ha, _, ih.2 hrest, rfl⟩

/-- **The names of an object in which none is missing.** -/
theorem perm_names (hnames : names.Nodup) (hstruct : d.struct names = some members)
    (hall : ∀ name ∈ names, ∃ d, members.lookup name = some d) :
    (members.map Prod.fst).Perm names := by
  obtain ⟨-, hnodup, hknown⟩ := struct_eq_some_iff.1 hstruct
  refine (List.perm_ext_iff_of_nodup hnodup hnames).2 fun name => ⟨fun hmem => ?_, fun hmem => ?_⟩
  · obtain ⟨m, hm, rfl⟩ := List.mem_map.1 hmem
    exact hknown m hm
  · exact lookup_isSome_iff.1 (Option.isSome_iff_exists.2 (hall name hmem))

/-- What conforms to the schema of an object without others is read as an object. -/
theorem struct_of_accepts {properties : List (String × Schema)} {required : List String}
    (h : (Schema.object properties required .never).accepts d)
    (hnames : properties.map Prod.fst ⊆ names) :
    ∃ members, d = .object members ∧ d.struct names = some members := by
  obtain ⟨members, rfl⟩ := exists_object_of_accepts h
  refine ⟨members, rfl, struct_eq_some_iff.2 ⟨rfl, nodup_of_accepts h, ?_⟩⟩
  exact fun m hm => hnames (name_mem_of_accepts h m hm)

end Readers

end Json
