/-
A registry is a store in which every entry is written once.

A key of a store is inserted with its value when it has none, and keeps it from then on.  A pointer
names the key that was inserted or chosen last; it is only ever set to a key that has a value.
Nothing is removed, and nothing is replaced but the pointer.

What a registry contains is read off its files: an entry for every canonical token under whose name
one can be read, and the token that the latest pointer names.  Whatever calls run at the same time,
the operations that give a file its name are the operations of such a store, in the same order, and
no other operation is seen in it.

Main definitions:

* `Store`, `Store.Op`, `Store.system` — the state of a store, its operations and its steps;
* `TermInterop.Registry.contents` — what a registry contains;
* `TermInterop.Registry.seen` — the operations that are seen in it.

Main results:

* `Store.entries_eq_some_iff`, `Store.latest_eq_some_iff` — **a key has the value that it was
  inserted with**, and the pointer names the key that it was set to last;
* `TermInterop.Registry.seen_of_step` — a step is seen as a step of the store, or changes nothing;
* `TermInterop.Registry.registry_refines_store` — **a history of a registry is a run of a store**,
  which contains what was registered and nothing else.
-/

import TermInterop.Registrations

set_option relaxedAutoImplicit false
set_option autoImplicit false

/-! ### Stores -/

/-- A store, with a pointer to one of its keys. -/
structure Store (K V : Type) where
  entries : K → Option V
  latest : Option K

namespace Store

variable {K V : Type}

/-- The operations of a store. -/
inductive Op (K V : Type)
  | insert (key : K) (value : V)
  | point (key : K)
  deriving DecidableEq

/-- Nothing has been inserted. -/
def empty : Store K V := ⟨fun _ => none, none⟩

variable [DecidableEq K]

/-- A key with its value. -/
def insert (s : Store K V) (key : K) (value : V) : Store K V :=
  ⟨Function.update s.entries key (some value), s.latest⟩

/-- **The steps of a store**: a key is inserted once, and the pointer names a key with a value. -/
def system : Lts (Store K V) (Op K V) where
  silent _ _ := False
  step s op t :=
    match op with
    | .insert key value => s.entries key = none ∧ t = s.insert key value
    | .point key => (∃ value, s.entries key = some value) ∧ t = ⟨s.entries, some key⟩

section Steps

variable {s t : Store K V} {op : Op K V} {ops : List (Op K V)} {k : K} {v : V}

/-- **What a step does to a key.** -/
theorem step_entries_iff (h : system.step s op t) :
    t.entries k = some v ↔ op = .insert k v ∨ s.entries k = some v := by
  cases op with
  | insert key value =>
      obtain ⟨hfree, rfl⟩ := h
      by_cases hk : k = key
      · subst hk
        simp [Store.insert, hfree, eq_comm]
      · simp [Store.insert, hk, Ne.symm hk]
  | point key =>
      obtain ⟨-, rfl⟩ := h
      simp

/-- **A key has the value that it was inserted with.** -/
theorem entries_eq_some_iff (h : system.Run empty ops t) :
    t.entries k = some v ↔ .insert k v ∈ ops := by
  refine h.history_of_labels (P := fun past u => u.entries k = some v ↔ .insert k v ∈ past)
    (D := fun _ _ => True) (fun _ _ _ _ => trivial) ?_ ?_ (by simp [empty])
  · intro past s t hsilent
    exact hsilent.elim
  · intro past s t op hstep _ hs
    rw [step_entries_iff hstep, hs, List.mem_append, List.mem_singleton, or_comm, eq_comm]

/-- **The pointer names the key that it was set to last.** -/
theorem latest_eq_some_iff (h : system.Run empty ops t) :
    t.latest = some k ↔ ∃ before after, ops = before ++ .point k :: after ∧
      ∀ key, .point key ∉ after := by
  refine h.history_of_labels (P := fun past u => u.latest = some k ↔ ∃ before after,
    past = before ++ .point k :: after ∧ ∀ key, .point key ∉ after)
    (D := fun _ _ => True) (fun _ _ _ _ => trivial) ?_ ?_ (by simp [empty])
  · intro past s t hsilent
    exact hsilent.elim
  · intro past s t op hstep _ hs
    cases op with
    | insert key value =>
        obtain ⟨-, rfl⟩ := hstep
        rw [Store.insert, hs]
        constructor
        · rintro ⟨before, after, rfl, hafter⟩
          exact ⟨before, after ++ [.insert key value], by simp, by simpa using hafter⟩
        · rintro ⟨before, after, heq, hafter⟩
          rcases List.eq_nil_or_concat after with rfl | ⟨rest, last, rfl⟩
          · simp at heq
          · rw [List.concat_eq_append, ← List.cons_append, ← List.append_assoc] at heq
            obtain ⟨rfl, -⟩ := List.append_inj' heq rfl
            exact ⟨before, rest, rfl, fun key' hmem => hafter key' (by simp [hmem])⟩
    | point key =>
        obtain ⟨-, rfl⟩ := hstep
        constructor
        · intro hkey
          obtain rfl := Option.some.inj hkey
          exact ⟨past, [], rfl, by simp⟩
        · rintro ⟨before, after, heq, hafter⟩
          rcases List.eq_nil_or_concat after with rfl | ⟨rest, last, rfl⟩
          · obtain ⟨-, hpoint⟩ := List.append_inj' heq rfl
            exact congrArg some (Op.point.inj (List.cons.inj hpoint).1)
          · rw [List.concat_eq_append, ← List.cons_append, ← List.append_assoc] at heq
            obtain ⟨-, hpoint⟩ := List.append_inj' heq rfl
            obtain rfl := (List.cons.inj hpoint).1
            exact absurd (by simp) (hafter key)

end Steps

end Store

/-! ### The bytes under a name -/

namespace FileSystem

open TermInterop (Bytes PathBuf)

section ContentAt

variable {reserved : PathBuf → Prop} {path other : PathBuf} {file : File} {node : Node}
  {w w' : World} {bytes : Bytes}

theorem Kept.contentAt (h : Kept path file node w) : w.contentAt path = some node.content := by
  rw [World.contentAt, h.names, Option.map_some, h.nodes]

/-- A reserved file that is owned is not changed from outside. -/
theorem contentAt_of_outside (h : Outside reserved w w') (hreserved : reserved path)
    (howned : ∀ file, w.names path = some file → w.owned file) :
    w'.contentAt path = w.contentAt path := by
  rw [World.contentAt, World.contentAt, h.names path hreserved]
  cases hname : w.names path with
  | none => rfl
  | some file => rw [Option.map_some, Option.map_some, h.nodes file (howned file hname)]

/-- A file that is owned is not changed when another one is created. -/
theorem contentAt_of_creates (h : Creates w other bytes w') (hne : path ≠ other)
    (howned : ∀ file, w.names path = some file → w.owned file) :
    w'.contentAt path = w.contentAt path := by
  obtain ⟨created, hfresh, -, -, -, -, hnodes, -⟩ := h.created
  rw [World.contentAt, World.contentAt, h.names path hne]
  cases hname : w.names path with
  | none => rfl
  | some file =>
      have hfile : file ≠ created := by
        rintro rfl
        exact hfresh (howned file hname)
      rw [Option.map_some, Option.map_some, hnodes file hfile]

/-- A file that is created holds its bytes. -/
theorem contentAt_of_created (h : Creates w path bytes w') : w'.contentAt path = some bytes := by
  obtain ⟨file, node, hkept, hcontent, -⟩ := kept_of_creates h
  rw [hkept.contentAt, hcontent]

end ContentAt

end FileSystem

namespace TermInterop

open FileSystem (Event Kept World)

namespace Registry

-- what is used of the programs is what is proved about them
attribute [local irreducible] parseToken register resolve resolveLatest

/-! ### What a registry contains -/

/-- The token that is named by a latest pointer. -/
def pointed (bytes : Bytes) : Option String :=
  (Utf8Lossy.decodeStrict bytes).bind fun text =>
    (parseToken (String.ofList (Text.trim text))).toOption

/-- A pointer is read back. -/
theorem pointed_latestText {token : String} (h : IsCanonicalToken token) :
    pointed (Text.asBytes (latestText token)) = some token := by
  obtain ⟨hdecode, htrim⟩ := trim_latestText h
  rw [pointed, hdecode, Option.bind_some, htrim,
    parseToken_eq_ok_iff.2 ⟨h, Or.inr (Or.inl rfl)⟩]
  rfl

/-- **What a registry contains.** -/
def contents (registry : Registry) (lib : Libraries) (w : World) :
    Store String ArtifactRefV1 where
  entries token :=
    if IsCanonicalToken token then
      (w.contentAt (registry.entryPath token)).bind lib.serdeJson.fromSlice
    else none
  latest := (w.contentAt registry.latestPath).bind pointed

variable {ι : Type}

/-- **The operation of a store that is seen** when a file takes its name. -/
def seen (registry : Registry) (lib : Libraries) :
    ι × Event → Option (Store.Op String ArtifactRefV1)
  | (_, ⟨.persistNoclobber bytes path, .ok ()⟩) =>
      (lib.serdeJson.fromSlice bytes).bind fun entry =>
        if path = registry.entryPath entry.token then some (.insert entry.token entry) else none
  | (_, ⟨.persist bytes path, .ok ()⟩) =>
      if path = registry.latestPath then (pointed bytes).map .point else none
  | _ => none

section Contents

variable {registry : Registry} {lib : Libraries} {call : ι → Call} {labels past : List (ι × Event)}
  {w w' : World} {i : ι} {entry : ArtifactRefV1} {token : String}

theorem contents_entries (h : IsCanonicalToken token) : (contents registry lib w).entries token =
    (w.contentAt (registry.entryPath token)).bind lib.serdeJson.fromSlice := if_pos h

theorem contents_entries_of_not (h : ¬ IsCanonicalToken token) :
    (contents registry lib w).entries token = none := if_neg h

theorem seen_created :
    seen registry lib (i, ⟨.persistNoclobber (lib.serdeJson.toVec entry)
      (registry.entryPath entry.token), .ok ()⟩) = some (.insert entry.token entry) := by
  rw [seen, lib.serdeJson.fromSlice_toVec, Option.bind_some, if_pos rfl]

theorem seen_replaced (h : IsCanonicalToken token) :
    seen registry lib
      (i, ⟨.persist (Text.asBytes (latestText token)) registry.latestPath, .ok ()⟩) =
      some (.point token) := by
  rw [seen, if_pos rfl, pointed_latestText h]
  rfl

/-- A registry has the same contents when its files have the same bytes. -/
theorem contents_congr
    (hentries : ∀ token, IsCanonicalToken token →
      w'.contentAt (registry.entryPath token) = w.contentAt (registry.entryPath token))
    (hlatest : w'.contentAt registry.latestPath = w.contentAt registry.latestPath) :
    contents registry lib w' = contents registry lib w := by
  rw [contents, contents, hlatest, Store.mk.injEq]
  refine ⟨funext fun token => ?_, rfl⟩
  split
  · rename_i htoken
    rw [hentries token htoken]
  · rfl

/-- Nothing is in a fresh registry. -/
theorem contents_of_fresh (h : registry.Fresh w) : contents registry lib w = Store.empty := by
  rw [contents, Store.empty, Store.mk.injEq]
  constructor
  · funext token
    split
    · rename_i htoken
      rw [World.contentAt, h.free _ (registry.reserved_entryPath htoken)]
      rfl
    · rfl
  · rw [World.contentAt, h.free _ registry.reserved_latestPath]
    rfl

/-! ### What every step keeps -/

/-- The entries that were created are there. -/
def CreatedKept (registry : Registry) (lib : Libraries) (past : List (ι × Event)) (w : World) :
    Prop :=
  ∀ i entry, IsCanonicalToken entry.token →
    (i, ⟨.persistNoclobber (lib.serdeJson.toVec entry) (registry.entryPath entry.token), .ok ()⟩) ∈
      past →
    ∃ file node, Kept (registry.entryPath entry.token) file node w ∧
      node.content = lib.serdeJson.toVec entry

/-- Both files of every registration are accounted for. -/
structure Accounted (registry : Registry) (lib : Libraries) (call : ι → Call)
    (past : List (ι × Event)) (w : World) : Prop where
  entries : EntriesRecorded registry lib call past w
  latest : LatestRecorded registry lib past w
  created : CreatedKept registry lib past w

theorem Accounted.owned_entry (h : Accounted registry lib call past w)
    (htoken : IsCanonicalToken token) :
    ∀ file, w.names (registry.entryPath token) = some file → w.owned file := by
  intro file hname
  obtain ⟨i, requested, canonical, entry, node, -, -, hkept, -⟩ := h.entries token file htoken hname
  exact hkept.owned

theorem Accounted.owned_latest (h : Accounted registry lib call past w) :
    ∀ file, w.names registry.latestPath = some file → w.owned file := by
  intro file hname
  obtain ⟨i, entry, node, -, -, hkept, -⟩ := h.latest file hname
  exact hkept.owned

/-- What happens outside of all calls is not seen. -/
theorem Accounted.of_outside (h : FileSystem.Outside registry.Reserved w w')
    (haccounted : Accounted registry lib call past w) :
    Accounted registry lib call past w' ∧ contents registry lib w' = contents registry lib w := by
  refine ⟨⟨haccounted.entries.of_outside h, haccounted.latest.of_outside h, ?_⟩, ?_⟩
  · intro i entry htoken hcreated
    obtain ⟨file, node, hkept, hcontent⟩ := haccounted.created i entry htoken hcreated
    exact ⟨file, node, hkept.of_outside (registry.reserved_entryPath htoken) h, hcontent⟩
  · refine contents_congr (fun token htoken => ?_) ?_
    · exact FileSystem.contentAt_of_outside h (registry.reserved_entryPath htoken)
        (haccounted.owned_entry htoken)
    · exact FileSystem.contentAt_of_outside h registry.reserved_latestPath haccounted.owned_latest

variable [DecidableEq ι] {label : ι × Event}

theorem Accounted.of_step (h : (FileSystem.system ι registry.Reserved).step w label w')
    (hdoes : Does registry lib call past label)
    (haccounted : Accounted registry lib call past w) :
    Accounted registry lib call (past ++ [label]) w' := by
  refine ⟨haccounted.entries.of_step h hdoes, haccounted.latest.of_step h hdoes, ?_⟩
  intro i entry htoken hcreated
  rcases List.mem_append.1 hcreated with hbefore | hnow
  · obtain ⟨file, node, hkept, hcontent⟩ := haccounted.created i entry htoken hbefore
    exact ⟨file, node, hkept.of_step h (hdoes.not_replaced _), hcontent⟩
  · obtain rfl := List.mem_singleton.1 hnow
    obtain ⟨file, node, hkept, hcontent, -⟩ := FileSystem.kept_of_created h
    exact ⟨file, node, hkept, hcontent⟩

/-- An entry that is created is inserted. -/
theorem insert_of_created {bytes : Bytes} {path : PathBuf} (hfree : w.names path = none)
    (hcreates : FileSystem.Creates w path bytes w')
    (hdoes : Does registry lib call past (i, ⟨.persistNoclobber bytes path, .ok ()⟩))
    (haccounted : Accounted registry lib call past w) :
    ∃ op, seen registry lib (i, ⟨.persistNoclobber bytes path, .ok ()⟩) = some op ∧
      Store.system.step (contents registry lib w) op (contents registry lib w') := by
  rcases hdoes with ⟨requested, -, entry, canonical, rfl, rfl, hwrites⟩ | hreads
  · refine ⟨_, seen_created, ?_, ?_⟩
    · rw [contents_entries hwrites.token, World.contentAt, hfree]
      rfl
    · rw [Store.insert, contents, Store.mk.injEq]
      constructor
      · funext token
        by_cases htoken : token = entry.token
        · subst htoken
          rw [Function.update_self, if_pos hwrites.token, FileSystem.contentAt_of_created hcreates,
            Option.bind_some, lib.serdeJson.fromSlice_toVec]
        · rw [Function.update_of_ne htoken]
          by_cases hcanonical : IsCanonicalToken token
          · have hne := mt (entryPath_injective registry hcanonical hwrites.token) htoken
            rw [if_pos hcanonical, contents_entries hcanonical,
              FileSystem.contentAt_of_creates hcreates hne (haccounted.owned_entry hcanonical)]
          · rw [if_neg hcanonical, contents_entries_of_not hcanonical]
      · rw [FileSystem.contentAt_of_creates hcreates (entryPath_ne_latestPath registry _).symm
          haccounted.owned_latest]
        rfl
  · exact hreads.elim

/-- A pointer that is replaced is set. -/
theorem point_of_replaced {bytes : Bytes} {path : PathBuf}
    (hcreates : FileSystem.Creates w path bytes w')
    (hdoes : Does registry lib call past (i, ⟨.persist bytes path, .ok ()⟩))
    (haccounted : Accounted registry lib call past w) :
    ∃ op, seen registry lib (i, ⟨.persist bytes path, .ok ()⟩) = some op ∧
      Store.system.step (contents registry lib w) op (contents registry lib w') := by
  rcases hdoes with ⟨requested, -, rfl, entry, htoken, rfl, hcreated⟩ | hreads
  · refine ⟨_, seen_replaced htoken, ?_, ?_⟩
    · -- its entry was created by the same call
      obtain ⟨file, node, hkept, hcontent⟩ :=
        haccounted.created i entry htoken (Histories.mem_project_iff.1 hcreated)
      refine ⟨entry, ?_⟩
      rw [contents_entries htoken, hkept.contentAt, hcontent, Option.bind_some,
        lib.serdeJson.fromSlice_toVec]
    · rw [contents, Store.mk.injEq]
      constructor
      · funext token
        by_cases hcanonical : IsCanonicalToken token
        · rw [if_pos hcanonical, contents_entries hcanonical,
            FileSystem.contentAt_of_creates hcreates (entryPath_ne_latestPath registry token)
              (haccounted.owned_entry hcanonical)]
        · rw [if_neg hcanonical, contents_entries_of_not hcanonical]
      · rw [FileSystem.contentAt_of_created hcreates, Option.bind_some, pointed_latestText htoken]
  · exact hreads.elim

/-- **A step is seen as a step of the store**, or it changes nothing. -/
theorem seen_of_step (h : (FileSystem.system ι registry.Reserved).step w label w')
    (hdoes : Does registry lib call past label)
    (haccounted : Accounted registry lib call past w) :
    (seen registry lib label = none → contents registry lib w' = contents registry lib w) ∧
      ∀ op, seen registry lib label = some op →
        Store.system.step (contents registry lib w) op (contents registry lib w') := by
  suffices hseen : (∃ op, seen registry lib label = some op ∧
      Store.system.step (contents registry lib w) op (contents registry lib w')) ∨
      (seen registry lib label = none ∧ w' = w) by
    rcases hseen with ⟨op, hop, hstep⟩ | ⟨hnone, rfl⟩
    · refine ⟨fun hnone => ?_, fun op' hop' => ?_⟩
      · rw [hop] at hnone
        cases hnone
      · obtain rfl := Option.some.inj (hop.symm.trans hop')
        exact hstep
    · refine ⟨fun _ => rfl, fun op hop => ?_⟩
      rw [hnone] at hop
      cases hop
  obtain ⟨i, e⟩ := label
  rcases h with hperforms | ⟨hfailed, rfl⟩
  · cases hperforms with
    | persistNoclobber hfree hcreates =>
        exact Or.inl (insert_of_created hfree hcreates hdoes haccounted)
    | persist hcreates => exact Or.inl (point_of_replaced hcreates hdoes haccounted)
    | _ => exact Or.inr ⟨rfl, rfl⟩
  · refine Or.inr ⟨?_, rfl⟩
    cases hfailed <;> rfl

end Contents

/-! ### What is in a registry -/

section Seen

variable [DecidableEq ι] {registry : Registry} {lib : Libraries} {call : ι → Call}
  {past : List (ι × Event)} {label : ι × Event} {entry : ArtifactRefV1} {token : String}

/-- An entry is inserted when it is created under its own name. -/
theorem seen_eq_insert_iff (hdoes : Does registry lib call past label) :
    seen registry lib label = some (.insert token entry) ↔ entry.token = token ∧
      label.2 = ⟨.persistNoclobber (lib.serdeJson.toVec entry) (registry.entryPath entry.token),
        .ok ()⟩ := by
  obtain ⟨i, e⟩ := label
  constructor
  · intro hseen
    rw [seen.eq_def] at hseen
    split at hseen
    · rename_i bytes path heq
      obtain ⟨rfl, rfl⟩ := Prod.mk.inj heq
      rcases hdoes with ⟨requested, -, entry', canonical, rfl, rfl, hwrites⟩ | hreads
      · rw [lib.serdeJson.fromSlice_toVec, Option.bind_some, if_pos rfl] at hseen
        obtain ⟨rfl, rfl⟩ := Store.Op.insert.inj (Option.some.inj hseen)
        exact ⟨rfl, rfl⟩
      · exact hreads.elim
    · split at hseen
      · obtain ⟨token', -, hpoint⟩ := Option.map_eq_some_iff.1 hseen
        cases hpoint
      · cases hseen
    · cases hseen
  · rintro ⟨rfl, rfl⟩
    exact seen_created

/-- The pointer is set when it is replaced. -/
theorem seen_eq_point_iff (hdoes : Does registry lib call past label) :
    seen registry lib label = some (.point token) ↔ IsCanonicalToken token ∧
      label.2 = ⟨.persist (Text.asBytes (latestText token)) registry.latestPath, .ok ()⟩ := by
  obtain ⟨i, e⟩ := label
  constructor
  · intro hseen
    rw [seen.eq_def] at hseen
    split at hseen
    · obtain ⟨entry, -, hinsert⟩ := Option.bind_eq_some_iff.1 hseen
      split at hinsert <;> cases hinsert
    · rename_i bytes path heq
      obtain ⟨rfl, rfl⟩ := Prod.mk.inj heq
      rcases hdoes with ⟨requested, -, rfl, entry', htoken, rfl, hcreated⟩ | hreads
      · rw [if_pos rfl, pointed_latestText htoken] at hseen
        obtain rfl := Store.Op.point.inj (Option.some.inj hseen)
        exact ⟨htoken, rfl⟩
      · exact hreads.elim
    · cases hseen
  · rintro ⟨htoken, rfl⟩
    exact seen_replaced htoken

/-- What is seen of a history is inserted by the registrations that recorded an entry. -/
theorem insert_mem_seen_iff {labels : List (ι × Event)}
    (hdoes : ∀ past label rest, labels = past ++ label :: rest →
      Does registry lib call past label) :
    .insert token entry ∈ labels.filterMap (seen registry lib) ↔ entry.token = token ∧
      ∃ i requested canonical, Recorded registry lib call labels i requested canonical entry := by
  rw [List.mem_filterMap]
  constructor
  · rintro ⟨⟨i, e⟩, hmem, hseen⟩
    obtain ⟨past, rest, hlabels⟩ := List.append_of_mem hmem
    have hlabel := hdoes past (i, e) rest hlabels
    obtain ⟨htoken, rfl⟩ := (seen_eq_insert_iff hlabel).1 hseen
    rcases hlabel with ⟨requested, hcall, entry', canonical, hbytes, hpath, hwrites⟩ | hreads
    · have hsame : entry' = entry := by
        have hread := congrArg lib.serdeJson.fromSlice hbytes
        rw [lib.serdeJson.fromSlice_toVec, lib.serdeJson.fromSlice_toVec] at hread
        exact (Option.some.inj hread).symm
      subst hsame
      have htold := Histories.mem_project_iff.1 hwrites.told
      exact ⟨htoken, i, requested, canonical, hcall, hwrites.token, hwrites.path,
        by simp [hlabels, htold], hmem⟩
    · exact hreads.elim
  · rintro ⟨rfl, i, requested, canonical, hrecorded⟩
    exact ⟨_, hrecorded.created, seen_created⟩

/-- What is seen last of the pointer is its last replacement. -/
theorem point_last_seen_iff {labels : List (ι × Event)}
    (hdoes : ∀ past label rest, labels = past ++ label :: rest →
      Does registry lib call past label) :
    (∃ before after, labels.filterMap (seen registry lib) = before ++ .point token :: after ∧
      ∀ key, .point key ∉ after) ↔
      IsCanonicalToken token ∧ ∃ past i rest, labels = past ++
        (i, ⟨.persist (Text.asBytes (latestText token)) registry.latestPath, .ok ()⟩) :: rest ∧
        ∀ label ∈ rest, ∀ bytes, label.2 ≠ ⟨.persist bytes registry.latestPath, .ok ()⟩ := by
  constructor
  · rintro ⟨before, after, hseen, hlast⟩
    obtain ⟨l₁, l₂, rfl, -, hl₂⟩ := List.filterMap_eq_append_iff.1 hseen
    obtain ⟨l₃, label, l₄, rfl, hnone, hlabel, hl₄⟩ := List.filterMap_eq_cons_iff.1 hl₂
    have hpoint := (seen_eq_point_iff (hdoes (l₁ ++ l₃) label l₄ (by simp))).1 hlabel
    obtain ⟨i, e⟩ := label
    obtain ⟨htoken, rfl⟩ := hpoint
    refine ⟨htoken, l₁ ++ l₃, i, l₄, by simp, ?_⟩
    -- a later replacement would be seen
    rintro ⟨j, _⟩ hmem bytes rfl
    obtain ⟨l₅, l₆, rfl⟩ := List.append_of_mem hmem
    have hlater := hdoes (l₁ ++ (l₃ ++ (i, ⟨.persist (Text.asBytes (latestText token))
      registry.latestPath, .ok ()⟩) :: l₅))
        (j, ⟨.persist bytes registry.latestPath, .ok ()⟩) l₆ (by simp)
    rcases hlater with ⟨requested, -, -, entry, hcanonical, rfl, -⟩ | hreads
    · refine hlast entry.token ?_
      rw [← hl₄]
      exact List.mem_filterMap.2 ⟨_, List.mem_append_right _ List.mem_cons_self,
        seen_replaced hcanonical⟩
    · exact hreads.elim
  · rintro ⟨htoken, past, i, rest, rfl, hlast⟩
    refine ⟨past.filterMap (seen registry lib), rest.filterMap (seen registry lib), ?_, ?_⟩
    · rw [List.filterMap_append, List.filterMap_cons_some (seen_replaced htoken)]
    · intro key hmem
      obtain ⟨label, hlabel, hseen⟩ := List.mem_filterMap.1 hmem
      obtain ⟨l₅, l₆, rfl⟩ := List.append_of_mem hlabel
      have hlater := hdoes (past ++ (i, ⟨.persist (Text.asBytes (latestText token))
        registry.latestPath, .ok ()⟩) :: l₅) label l₆ (by simp)
      exact hlast label hlabel _ ((seen_eq_point_iff hlater).1 hseen).2

end Seen

/-! ### Refinement -/

/-- **A history of a registry is a run of a store**, in which the files that take their names are
the operations.  So it contains what was registered and nothing else, and its pointer names what was
published last. -/
theorem registry_refines_store [DecidableEq ι] (registry : Registry) (lib : Libraries)
    (fuel : ι → ℕ) (call : ι → Call) (labels : List (ι × Event)) (w w' : World)
    (hfresh : registry.Fresh w)
    (hrun : (FileSystem.system ι registry.Reserved).Run w labels w')
    (hobeys : Obeys registry lib fuel call labels) :
    Store.system.Run Store.empty (labels.filterMap (seen registry lib)) (contents registry lib w') ∧
      (∀ token entry, (contents registry lib w').entries token = some entry ↔ entry.token = token ∧
        ∃ i requested canonical, Recorded registry lib call labels i requested canonical entry) ∧
      ∀ token, (contents registry lib w').latest = some token ↔
        IsCanonicalToken token ∧ ∃ past i rest, labels = past ++
          (i, ⟨.persist (Text.asBytes (latestText token)) registry.latestPath, .ok ()⟩) :: rest ∧
          ∀ label ∈ rest, ∀ bytes, label.2 ≠ ⟨.persist bytes registry.latestPath, .ok ()⟩ := by
  have hdoes := does_of_obeys hobeys
  have hstore : Store.system.Run Store.empty (labels.filterMap (seen registry lib))
      (contents registry lib w') := by
    rw [← contents_of_fresh hfresh]
    refine hrun.refines (I := Accounted registry lib call) hdoes ?_ ?_ ?_
    · intro past s t hsilent haccounted
      exact haccounted.of_outside hsilent
    · intro past s t label hstep hlabel haccounted
      exact ⟨haccounted.of_step hstep hlabel, seen_of_step hstep hlabel haccounted⟩
    · have hnone : EntriesRecorded registry lib call [] w ∧ LatestRecorded registry lib [] w :=
        recorded_of_run (.nil w) hfresh (by simp)
      obtain ⟨hentries, hlatest⟩ := hnone
      exact ⟨hentries, hlatest, fun i entry _ hcreated => absurd hcreated (List.not_mem_nil)⟩
  refine ⟨hstore, fun token entry => ?_, fun token => ?_⟩
  · rw [Store.entries_eq_some_iff hstore, insert_mem_seen_iff hdoes]
  · rw [Store.latest_eq_some_iff hstore, point_last_seen_iff hdoes]

/-- The history of two registrations, as a run of a store. -/
theorem registry_refines_store_two : Store.system.Run Store.empty
    ((sampleLabels compactLibraries).filterMap (seen sampleRegistry compactLibraries))
    (contents sampleRegistry compactLibraries (registered compactLibraries (sampleToken true) 3
      (registered compactLibraries (sampleToken false) 1 sampleWorld))) :=
  (registry_refines_store sampleRegistry compactLibraries (fun _ => 3)
    (fun _ => .register (Text.asBytes "/a")) _ sampleWorld _ fresh_sampleWorld (sampleLabels_run _)
    (sampleLabels_obeys _)).1

end Registry

end TermInterop
