/-
Formats of JSON documents: a schema, what is written for a value, and a reader.

A format is lawful when what is written conforms to the schema and is read back.  The laws compose:
a format of an array is made from one of its items, and a format of an object from those of its
members, of which the writer and the schema have each their own order.

Main definitions:

* `Json.RoundTrip`, `Json.Format` — the laws;
* `Json.orNull` — what is written for a value that may be missing.

Main results:

* `Json.Format.array`, `Json.Format.variants` — arrays and names;
* `Json.orNull_conforms`, `Json.nullable_orNull` — values that may be missing;
* `Json.accepts_object`, `Json.struct_object` — objects.
-/

import TermInterop.JsonText

set_option relaxedAutoImplicit false
set_option autoImplicit false

namespace Json

/-- **What is written has some depth and is read back.** -/
structure RoundTrip {α : Type} (k : ℕ) (write : α → Document) (read : Document → Option α) :
    Prop where
  within : ∀ a, (write a).Within k
  read_write : ∀ a, read (write a) = some a

/-- **The laws of a format**: what is written conforms to the schema, too. -/
structure Format {α : Type} (k : ℕ) (schema : Schema) (write : α → Document)
    (read : Document → Option α) : Prop extends RoundTrip k write read where
  conforms : ∀ a, schema.accepts (write a) = true

/-- A value, or `null`. -/
def orNull {α : Type} (write : α → Document) : Option α → Document
  | none => .null
  | some a => write a

section Formats

variable {α : Type} {k l : ℕ} {schema : Schema} {write : α → Document} {read : Document → Option α}

/-- A text. -/
theorem Format.text : Format 0 .string .string text where
  within _ := trivial
  conforms _ := rfl
  read_write _ := rfl

/-- **An array**, item by item. -/
theorem Format.array (h : Format k schema write read) :
    Format (k + 1) (.array schema) (fun as => .array (as.map write)) (list read) where
  within as := by
    intro d hd
    obtain ⟨a, -, rfl⟩ := List.mem_map.1 hd
    exact h.within a
  conforms as := by
    rw [Schema.accepts, List.all_eq_true]
    intro d hd
    obtain ⟨a, -, rfl⟩ := List.mem_map.1 hd
    exact h.conforms a
  read_write as := by
    rw [list_eq_some_iff, List.forall₂_map_left_iff, List.forall₂_same]
    exact fun a _ => h.read_write a

/-- To how many of these constants a text conforms. -/
theorem countAccepting_const (names : List String) (name : String) :
    countAccepting (names.map .const) (.string name) = names.count name := by
  induction names with
  | nil => rfl
  | cons n names ih =>
      rw [List.map_cons, countAccepting, ih, List.count_cons, add_comm, Schema.accepts]
      by_cases h : n = name
      · simp [h]
      · simp [h, Ne.symm h]

theorem lookup_name {name : α → String} {values : List α} {a : α}
    (hinj : ∀ a ∈ values, ∀ b ∈ values, name a = name b → a = b) (ha : a ∈ values) :
    (values.map fun a => (name a, a)).lookup (name a) = some a := by
  induction values with
  | nil => cases ha
  | cons b values ih =>
      rw [List.map_cons, List.lookup_cons]
      by_cases hname : name a = name b
      · rw [hinj a ha b List.mem_cons_self hname]
        simp
      · have hmem : a ∈ values := by
          rcases List.mem_cons.1 ha with rfl | hmem
          · exact absurd rfl hname
          · exact hmem
        rw [beq_eq_false_iff_ne.2 hname]
        exact ih (fun c hc d hd => hinj c (List.mem_cons_of_mem _ hc) d (List.mem_cons_of_mem _ hd))
          hmem

/-- **One of some names.** -/
theorem Format.variants (name : α → String) (values : List α)
    (hnodup : (values.map name).Nodup) (hall : ∀ a, a ∈ values) :
    Format 0 (.oneOf ((values.map name).map .const)) (fun a => .string (name a))
      (variant (values.map fun a => (name a, a))) where
  within _ := trivial
  conforms a := by
    rw [Schema.accepts, countAccepting_const, List.count_eq_one_of_mem hnodup
      (List.mem_map_of_mem (hall a))]
    rfl
  read_write a := by
    rw [variant, Json.text, Option.bind_some]
    exact lookup_name (List.inj_on_of_nodup_map hnodup) (hall a)

theorem RoundTrip.within_of_le (h : RoundTrip k write read) (hle : k ≤ l) (a : α) :
    (write a).Within l := (h.within a).mono hle

theorem orNull_within (h : RoundTrip k write read) (hle : k ≤ l) (value : Option α) :
    (orNull write value).Within l := by
  cases value with
  | none => cases l <;> trivial
  | some a => exact h.within_of_le hle a

/-- **A value that may be missing** conforms. -/
theorem orNull_conforms (h : Format k schema write read) (value : Option α) :
    (Schema.anyOf [schema, .null]).accepts (orNull write value) = true := by
  rw [Schema.accepts, countAccepting, countAccepting, countAccepting]
  cases value with
  | none => simp [orNull, Schema.accepts]
  | some a => simp [orNull, h.conforms a]

theorem nullable_of_ne_null {d : Document} (hd : d ≠ .null) :
    nullable read d = (read d).map some := by
  cases d with
  | null => exact absurd rfl hd
  | _ => rfl

/-- **A value that may be missing** is read back. -/
theorem nullable_orNull (h : RoundTrip k write read) (hnull : ∀ a, write a ≠ .null)
    (value : Option α) : nullable read (orNull write value) = some value := by
  cases value with
  | none => rfl
  | some a =>
      rw [orNull, nullable_of_ne_null (hnull a), h.read_write]
      rfl

end Formats

/-! ### Objects -/

theorem lookup_cons (name other : String) (d : Document) (members : Members) :
    List.lookup name ((other, d) :: members) =
      if name = other then some d else members.lookup name := by
  rw [List.lookup_cons]
  by_cases h : name = other
  · simp [h]
  · rw [beq_eq_false_iff_ne.2 h, if_neg h]

@[simp] theorem within_string (k : ℕ) (s : String) : (Document.string s).Within k := by
  cases k <;> trivial

/-- An object is one level deeper than its members. -/
theorem within_object {k : ℕ} {members : Members} (h : ∀ m ∈ members, m.2.Within k) :
    (Document.object members).Within (k + 1) := h

section Objects

variable {k : ℕ} {properties : List (String × Schema)} {required names : List String}
  {additional : Schema} {members : Members}

/-- **An object conforms** when its names are known and none that is required is missing, and each
member conforms to the property of its name. -/
theorem accepts_object (hnodup : (members.map Prod.fst).Nodup)
    (hrequired : ∀ name ∈ required, name ∈ members.map Prod.fst)
    (hmembers : ∀ m ∈ members, m.1 ∈ properties.map Prod.fst ∧
      propertiesAccept properties m.1 m.2 = true) :
    (Schema.object properties required additional).accepts (.object members) = true := by
  rw [Schema.accepts, Bool.and_eq_true, Bool.and_eq_true, List.all_eq_true, List.all_eq_true]
  refine ⟨⟨decide_eq_true hnodup, fun name hname => ?_⟩, fun m hm => ?_⟩
  · exact lookup_isSome_iff.2 (hrequired name hname)
  · obtain ⟨hknown, haccepts⟩ := hmembers m hm
    rwa [if_pos hknown]

/-- An object of the right names is read by its members. -/
theorem struct_object (hnodup : (members.map Prod.fst).Nodup)
    (hnames : ∀ m ∈ members, m.1 ∈ names) :
    (Document.object members).struct names = some members :=
  struct_eq_some_iff.2 ⟨rfl, hnodup, hnames⟩

end Objects

end Json
