/-
Registrations on one registry.

Any number of calls run at the same time on one registry, and outside of them the file system may
change in any way, except that nobody else writes under the registry.  A history begins before the
registry has any entry.

Two files tell of a registration: its entry, which is created once, and the latest pointer, which
later registrations replace.  Both are accounted for in every history: whatever is bound under the
name of an entry was recorded there by one registration, and whatever the latest pointer names has
an entry.

Main definitions:

* `TermInterop.Registry.Call`, `TermInterop.Registry.Outcome` — the calls, and what they return;
* `TermInterop.Registry.Reserved`, `TermInterop.Registry.Fresh` — the files of a registry, and a
  registry without any;
* `TermInterop.Registry.Does` — what a call may do with named files;
* `TermInterop.Registry.Recorded` — the registration that recorded an entry;
* `TermInterop.Registry.Obeys`, `TermInterop.Registry.Returned` — calls that run their programs.

Main results:

* `TermInterop.Registry.recorded_of_run` — what is bound has been recorded;
* `TermInterop.Registry.entries_never_change` — **an entry is never changed or removed**;
* `TermInterop.Registry.tokens_unique` — **no two registrations return one token**;
* `TermInterop.Registry.latest_never_dangles` — **the latest pointer names an entry**.
-/

import TermInterop.FailedRegistration
import TermInterop.LoadArtifact

set_option relaxedAutoImplicit false
set_option autoImplicit false

namespace TermInterop

open FileSystem (Event File Fs Kept Metadata Node Performs World attempt_bind_returns_iff
  readUntilEnd)
open Histories (project)

namespace Registry

-- what is used of the programs is what is proved about them
attribute [local irreducible] parseToken register resolve resolveLatest loadArtifact

/-! ### Calls -/

/-- The calls on a registry. -/
inductive Call
  | register (path : PathBuf)
  | resolve (reference : String)
  | resolveLatest
  | load (library : ImageLibrary) (path : PathBuf)

/-- What a call returns. -/
inductive Outcome
  | registered (entry : ArtifactRefV1)
  | resolved (path : PathBuf)
  | loaded (path : PathBuf) (artifact : PreparedArtifact)

def Call.prog (registry : Registry) (lib : Libraries) (fuel : ℕ) : Call → Fs LoadError Outcome
  | register path => do
      let entry ← (registry.register lib fuel path).mapError .registry
      .ret (.registered entry)
  | resolve reference => do
      let path ← (registry.resolve lib fuel reference).mapError .registry
      .ret (.resolved path)
  | resolveLatest => do
      let path ← (registry.resolveLatest lib fuel).mapError .registry
      .ret (.resolved path)
  | load library path => do
      let (canonical, artifact) ← loadArtifact library lib (some registry) fuel path
      .ret (.loaded canonical artifact)

/-- The files of a registry. -/
def Reserved (registry : Registry) (path : PathBuf) : Prop :=
  (∃ token, IsCanonicalToken token ∧ path = registry.entryPath token) ∨ path = registry.latestPath

/-- Nothing has been registered. -/
structure Fresh (registry : Registry) (w : World) : Prop where
  free : ∀ path, registry.Reserved path → w.names path = none

theorem reserved_entryPath (registry : Registry) {token : String} (h : IsCanonicalToken token) :
    registry.Reserved (registry.entryPath token) := Or.inl ⟨token, h, rfl⟩

theorem reserved_latestPath (registry : Registry) : registry.Reserved registry.latestPath :=
  Or.inr rfl

/-! ### What calls do with named files -/

section Does

variable {ι : Type} [DecidableEq ι] (registry : Registry) (lib : Libraries) (call : ι → Call)

/-- **What a call may do with named files**: a registration does what it does, and otherwise a call
only reads. -/
def Does (past : List (ι × Event)) (label : ι × Event) : Prop :=
  (∃ requested, call label.1 = .register requested ∧
    RegisterDoes registry lib requested (project label.1 past) label.2) ∨ ReadsOrMakes label.2

variable {registry lib call} {fuel : ι → ℕ} {labels past : List (ι × Event)}

theorem Call.prog_always (registry : Registry) (lib : Libraries) (c : Call) (n : ℕ) :
    Prog.Always (fun past e => (∃ requested, c = .register requested ∧
      RegisterDoes registry lib requested past e) ∨ ReadsOrMakes e) [] (c.prog registry lib n) := by
  cases c with
  | register path =>
      refine .bind (register_always.mono fun past e he => ?_).mapError fun _ _ _ => trivial
      exact Or.inl ⟨path, rfl, he⟩
  | resolve reference =>
      refine .bind ((reading_resolve []).mono fun _ _ he => ?_).mapError fun _ _ _ => trivial
      exact Or.inr he
  | resolveLatest =>
      refine .bind ((reading_resolveLatest []).mono fun _ _ he => ?_).mapError fun _ _ _ => trivial
      exact Or.inr he
  | load library path =>
      refine .bind ((reading_loadArtifact []).mono fun _ _ he => ?_) fun _ _ _ => trivial
      exact Or.inr he

/-- Every operation of calls that obey their programs is one that they may do. -/
theorem does_of_obeys
    (h : ∀ i, ∃ left, ((call i).prog registry lib (fuel i)).Reaches (project i labels) left) :
    ∀ past label rest, labels = past ++ label :: rest → Does registry lib call past label := by
  rintro past ⟨i, e⟩ rest rfl
  obtain ⟨left, hleft⟩ := h i
  exact Histories.always_of_reaches ((call i).prog_always registry lib (fuel i)) hleft

/-- An entry is never replaced. -/
theorem Does.not_replaced {label : ι × Event} (h : Does registry lib call past label)
    (token : String) : ∀ bytes, label.2 ≠ ⟨.persist bytes (registry.entryPath token), .ok ()⟩ := by
  obtain ⟨i, e⟩ := label
  rintro bytes rfl
  rcases h with ⟨requested, -, hpath, -⟩ | hreads
  · exact entryPath_ne_latestPath registry token hpath
  · exact hreads

/-- The latest pointer is never created under a name that is free. -/
theorem Does.latest_not_created {label : ι × Event} (h : Does registry lib call past label) :
    ∀ bytes, label.2 ≠ ⟨.persistNoclobber bytes registry.latestPath, .ok ()⟩ := by
  obtain ⟨i, e⟩ := label
  rintro bytes rfl
  rcases h with ⟨requested, -, entry, canonical, -, hpath, -⟩ | hreads
  · exact entryPath_ne_latestPath registry entry.token hpath.symm
  · exact hreads

theorem not_replaced_of_does
    (h : ∀ past label rest, labels = past ++ label :: rest → Does registry lib call past label)
    (token : String) : ∀ label ∈ labels, ∀ bytes,
      label.2 ≠ ⟨.persist bytes (registry.entryPath token), .ok ()⟩ := by
  intro label hmem
  obtain ⟨past, rest, hlabels⟩ := List.append_of_mem hmem
  exact (h past label rest hlabels).not_replaced token

end Does

/-! ### What is bound has been recorded -/

section Recorded

variable {ι : Type}

/-- **The registration that recorded an entry**: it was told the canonical path of what it was
requested to register, and created the entry under its token. -/
structure Recorded (registry : Registry) (lib : Libraries) (call : ι → Call)
    (labels : List (ι × Event)) (i : ι) (requested canonical : PathBuf) (entry : ArtifactRefV1) :
    Prop where
  call : call i = .register requested
  token : IsCanonicalToken entry.token
  path : entry.pathBase64 = lib.b64.encode canonical
  told : (i, ⟨.canonicalize requested, .ok canonical⟩) ∈ labels
  created : (i, ⟨.persistNoclobber (lib.serdeJson.toVec entry) (registry.entryPath entry.token),
    .ok ()⟩) ∈ labels

variable {registry : Registry} {lib : Libraries} {call : ι → Call} {fuel : ι → ℕ}
  {labels past : List (ι × Event)} {w w' : World} {i : ι} {requested canonical : PathBuf}
  {entry : ArtifactRefV1}

theorem Recorded.append (h : Recorded registry lib call past i requested canonical entry)
    (labels : List (ι × Event)) :
    Recorded registry lib call (past ++ labels) i requested canonical entry where
  call := h.call
  token := h.token
  path := h.path
  told := List.mem_append_left _ h.told
  created := List.mem_append_left _ h.created

/-- Every entry that is bound was recorded by some registration, and holds what it recorded. -/
def EntriesRecorded (registry : Registry) (lib : Libraries) (call : ι → Call)
    (past : List (ι × Event)) (w : World) : Prop :=
  ∀ token file, IsCanonicalToken token → w.names (registry.entryPath token) = some file →
    ∃ i requested canonical entry node,
      Recorded registry lib call past i requested canonical entry ∧ entry.token = token ∧
      Kept (registry.entryPath token) file node w ∧ node.content = lib.serdeJson.toVec entry ∧
      node.metadata.len = UInt64.ofNat (lib.serdeJson.toVec entry).length

theorem EntriesRecorded.of_outside (h : FileSystem.Outside registry.Reserved w w')
    (hrecorded : EntriesRecorded registry lib call past w) :
    EntriesRecorded registry lib call past w' := by
  intro token file htoken hbound
  have hreserved := registry.reserved_entryPath htoken
  rw [h.names _ hreserved] at hbound
  obtain ⟨i, requested, canonical, entry, node, hcall, rfl, hkept, hcontent⟩ :=
    hrecorded token file htoken hbound
  exact ⟨i, requested, canonical, entry, node, hcall, rfl, hkept.of_outside hreserved h, hcontent⟩

/-- The latest pointer holds the token of an entry that was created. -/
def LatestRecorded (registry : Registry) (lib : Libraries) (past : List (ι × Event)) (w : World) :
    Prop :=
  ∀ file, w.names registry.latestPath = some file →
    ∃ i entry node, IsCanonicalToken entry.token ∧
      (i, ⟨.persistNoclobber (lib.serdeJson.toVec entry)
        (registry.entryPath entry.token), .ok ()⟩) ∈ past ∧
      Kept registry.latestPath file node w ∧ node.content = Text.asBytes (latestText entry.token)

theorem LatestRecorded.of_outside (h : FileSystem.Outside registry.Reserved w w')
    (hrecorded : LatestRecorded registry lib past w) : LatestRecorded registry lib past w' := by
  intro file hbound
  rw [h.names _ registry.reserved_latestPath] at hbound
  obtain ⟨i, entry, node, htoken, hcreated, hkept, hcontent⟩ := hrecorded file hbound
  exact ⟨i, entry, node, htoken, hcreated,
    hkept.of_outside registry.reserved_latestPath h, hcontent⟩

variable [DecidableEq ι]

/-- **A step keeps all entries accounted for.** -/
theorem EntriesRecorded.of_step {label : ι × Event}
    (h : (FileSystem.system ι registry.Reserved).step w label w')
    (hdoes : Does registry lib call past label)
    (hrecorded : EntriesRecorded registry lib call past w) :
    EntriesRecorded registry lib call (past ++ [label]) w' := by
  intro token file htoken hbound
  rcases FileSystem.bound_of_step h hbound with hbefore | ⟨bytes, hcreate⟩ | ⟨bytes, hreplace⟩
  · obtain ⟨i, requested, canonical, entry, node, hcall, rfl, hkept, hcontent⟩ :=
      hrecorded token file htoken hbefore
    exact ⟨i, requested, canonical, entry, node, hcall.append _, rfl,
      hkept.of_step h (hdoes.not_replaced _), hcontent⟩
  · -- the entry is created by this step
    obtain ⟨i, e⟩ := label
    obtain rfl := hcreate
    obtain ⟨file', node, hkept, hcontent, hlen⟩ := FileSystem.kept_of_created h
    obtain rfl : file' = file := Option.some.inj (hkept.names.symm.trans hbound)
    rcases hdoes with ⟨requested, hcall, entry, canonical, rfl, hpath, hwrites⟩ | hreads
    · obtain rfl := entryPath_injective registry htoken hwrites.token hpath
      have htold := Histories.mem_project_iff.1 hwrites.told
      exact ⟨i, requested, canonical, entry, node, ⟨hcall, hwrites.token, hwrites.path,
        by simp [htold], by simp⟩, rfl, hkept, hcontent, hlen⟩
    · exact hreads.elim
  · exact absurd hreplace (hdoes.not_replaced token bytes)

/-- **A step keeps the latest pointer accounted for.** -/
theorem LatestRecorded.of_step {label : ι × Event}
    (h : (FileSystem.system ι registry.Reserved).step w label w')
    (hdoes : Does registry lib call past label)
    (hrecorded : LatestRecorded registry lib past w) :
    LatestRecorded registry lib (past ++ [label]) w' := by
  intro file hbound
  by_cases hreplace : ∃ bytes, label.2 = ⟨.persist bytes registry.latestPath, .ok ()⟩
  · -- the pointer is replaced by this step, after the entry was created
    obtain ⟨bytes, hreplace⟩ := hreplace
    obtain ⟨i, e⟩ := label
    obtain rfl := hreplace
    obtain ⟨file', node, hkept, hcontent⟩ := FileSystem.kept_of_replaced h
    obtain rfl : file' = file := Option.some.inj (hkept.names.symm.trans hbound)
    rcases hdoes with ⟨requested, hcall, -, entry, htoken, rfl, hcreated⟩ | hreads
    · have hevent := Histories.mem_project_iff.1 hcreated
      exact ⟨i, entry, node, htoken, List.mem_append_left _ hevent, hkept, hcontent⟩
    · exact hreads.elim
  · have hnot := fun bytes heq => hreplace ⟨bytes, heq⟩
    rcases FileSystem.bound_of_step h hbound with hbefore | ⟨bytes, hcreate⟩ | hreplaced
    · obtain ⟨i, entry, node, htoken, hcreated, hkept, hcontent⟩ := hrecorded file hbefore
      exact ⟨i, entry, node, htoken, List.mem_append_left _ hcreated,
        hkept.of_step h hnot, hcontent⟩
    · exact absurd hcreate (hdoes.latest_not_created bytes)
    · exact absurd hreplaced hreplace

/-- **What is bound has been recorded**, in every history of a fresh registry. -/
theorem recorded_of_run (h : (FileSystem.system ι registry.Reserved).Run w labels w')
    (hfresh : registry.Fresh w)
    (hdoes : ∀ past label rest, labels = past ++ label :: rest →
      Does registry lib call past label) :
    EntriesRecorded registry lib call labels w' ∧ LatestRecorded registry lib labels w' := by
  refine h.history_of_labels hdoes
    (P := fun past v => EntriesRecorded registry lib call past v ∧
      LatestRecorded registry lib past v) ?_ ?_ ?_
  · rintro past s t hsilent ⟨hentries, hlatest⟩
    exact ⟨hentries.of_outside hsilent, hlatest.of_outside hsilent⟩
  · rintro past s t label hstep hlabel ⟨hentries, hlatest⟩
    exact ⟨hentries.of_step hstep hlabel, hlatest.of_step hstep hlabel⟩
  · constructor
    · intro token file htoken hbound
      rw [hfresh.free _ (registry.reserved_entryPath htoken)] at hbound
      cases hbound
    · intro file hbound
      rw [hfresh.free _ registry.reserved_latestPath] at hbound
      cases hbound

/-- **An entry is created once.** -/
theorem Recorded.unique {i j : ι} {requested' canonical' : PathBuf} {entry' : ArtifactRefV1}
    (hrun : (FileSystem.system ι registry.Reserved).Run w labels w')
    (hdoes : ∀ past label rest, labels = past ++ label :: rest → Does registry lib call past label)
    (hi : Recorded registry lib call labels i requested canonical entry)
    (hj : Recorded registry lib call labels j requested' canonical' entry')
    (htoken : entry'.token = entry.token) : j = i ∧ entry' = entry := by
  have hreserved := registry.reserved_entryPath hi.token
  have hreplace := not_replaced_of_does hdoes entry.token
  have honce : ∀ {l₁ l₂ : List (ι × Event)} {k : ι} {bytes : Bytes},
      labels = l₁ ++ (k, ⟨.persistNoclobber bytes (registry.entryPath entry.token), .ok ()⟩) :: l₂ →
      ∀ label ∈ l₂, ∀ bytes, label.2 ≠ ⟨.persistNoclobber bytes (registry.entryPath entry.token),
        .ok ()⟩ := by
    intro l₁ l₂ k bytes hlabels
    have hrest : ∀ label ∈ l₂, label ∈ labels := fun label hlabel => by simp [hlabels, hlabel]
    refine FileSystem.created_once (hlabels ▸ hrun) hreserved fun label hlabel => ?_
    exact hreplace label (hrest label hlabel)
  have hcreated := hj.created
  rw [htoken] at hcreated
  obtain ⟨l₁, l₂, hlabels⟩ := List.append_of_mem hi.created
  have hwhere := hcreated
  rw [hlabels, List.mem_append, List.mem_cons] at hwhere
  rcases hwhere with hfirst | hsame | hlast
  · -- the other one was created before
    obtain ⟨m₁, m₂, rfl⟩ := List.append_of_mem hfirst
    rw [List.append_assoc, List.cons_append] at hlabels
    exact absurd rfl (honce hlabels _ (List.mem_append_right _ List.mem_cons_self)
      (lib.serdeJson.toVec entry))
  · have hcaller := congrArg (fun label : ι × Event => label.1) hsame
    have hevent := congrArg (fun label : ι × Event => label.2) hsame
    refine ⟨hcaller, ?_⟩
    have hop := congrArg Sigma.fst hevent
    have hbytes : lib.serdeJson.toVec entry' = lib.serdeJson.toVec entry :=
      (FileSystem.FsOp.persistNoclobber.inj hop).1
    have hread := congrArg lib.serdeJson.fromSlice hbytes
    rw [lib.serdeJson.fromSlice_toVec, lib.serdeJson.fromSlice_toVec] at hread
    exact Option.some.inj hread
  · exact absurd rfl (honce hlabels _ hlast (lib.serdeJson.toVec entry'))

end Recorded

/-! ### Histories -/

section Histories

variable {ι : Type} [DecidableEq ι]

/-- The calls have been obeying their programs. -/
def Obeys (registry : Registry) (lib : Libraries) (fuel : ι → ℕ) (call : ι → Call)
    (labels : List (ι × Event)) : Prop :=
  ∀ i, ∃ left, ((call i).prog registry lib (fuel i)).Reaches (project i labels) left

/-- A call has returned. -/
def Returned (registry : Registry) (lib : Libraries) (fuel : ι → ℕ) (call : ι → Call)
    (labels : List (ι × Event)) (i : ι) (outcome : Outcome) : Prop :=
  ((call i).prog registry lib (fuel i)).Returns (project i labels) outcome

end Histories

/-! ### Two registrations -/

section Sample

variable {ι : Type} {lib : Libraries} {random : Bytes} {token : String} {w : World} {n : ℕ}

/-- The operations of a registration of `/a`. -/
def registrationCalls (lib : Libraries) (random : Bytes) (token : String) : List Event :=
  captureCalls ++ (writtenCalls lib random token ++
    publishCalls sampleRegistry lib (sampleEntry lib token))

theorem registration_returns (h : randomToken random = .ok token) :
    (register sampleRegistry lib 3 (Text.asBytes "/a")).Returns (registrationCalls lib random token)
      (sampleEntry lib token) := by
  refine (captureCalls_reaches lib).append ?_
  refine Prog.bind_returns_iff.2 ⟨_, token, _, freshToken_of_randomToken h, ?_, rfl⟩
  exact .perform (.perform (.perform (.perform (.here _))))

theorem registerCall_returns (h : randomToken random = .ok token) :
    ((Call.register (Text.asBytes "/a")).prog sampleRegistry lib 3).Returns
      (registrationCalls lib random token) (.registered (sampleEntry lib token)) :=
  Prog.bind_returns_iff.2 ⟨_, _, [], Prog.mapError_returns_iff.2 (registration_returns h),
    Prog.Reaches.here _, (List.append_nil _).symm⟩

theorem Ready.publish (h : Ready n w) {path : PathBuf} (hpath : path ≠ Text.asBytes "/a")
    (bytes : Bytes) : Ready (n + 1) (w.publish path bytes n) where
  names := (Function.update_of_ne hpath.symm ..).trans h.names
  canonical := h.canonical
  nodes := (Function.update_of_ne h.pos.ne ..).trans h.nodes
  pos := Nat.succ_pos n
  owned file hfile := by
    rintro (rfl | howned)
    · omega
    · exact h.owned file (by omega) howned

/-- The latest pointer is not the file `/a`. -/
theorem latestPath_ne_a : sampleRegistry.latestPath ≠ Text.asBytes "/a" := by
  have hroot : Text.asBytes "/r" = [0x2F, 0x72] := by decide
  have hlatest : Text.asBytes "latest" = [0x6C, 0x61, 0x74, 0x65, 0x73, 0x74] := by decide
  have ha : Text.asBytes "/a" = [0x2F, 0x61] := by decide
  rw [latestPath, sampleRegistry, hroot, hlatest, ha]
  decide

/-- What a registration of `/a` makes of the file system. -/
def registered (lib : Libraries) (token : String) (n : ℕ) (w : World) : World :=
  (w.publish (sampleRegistry.entryPath token)
    (lib.serdeJson.toVec (sampleEntry lib token)) n).publish
    sampleRegistry.latestPath (Text.asBytes (latestText token)) (n + 1)

theorem Ready.registered (h : Ready n w) (lib : Libraries) (token : String) :
    Ready (n + 2) (registered lib token n w) :=
  (h.publish (entryPath_ne_a token) _).publish latestPath_ne_a _

theorem Ready.bound (h : Ready n w) : FileSystem.Names (Text.asBytes "/a") 0 sampleNode w :=
  ⟨h.names, h.nodes⟩

/-- Operations that change nothing can follow each other. -/
theorem run_of_performs {M : Lts World (ι × Event)} {i : ι} {events : List Event}
    (hstep : ∀ e, Performs w e w → M.step w (i, e) w) (h : ∀ e ∈ events, Performs w e w) :
    M.Run w (events.map fun e => (i, e)) w :=
  Lts.run_of_forall_step (List.forall_mem_map.2 fun e he => hstep e (h e he))

/-- A registration of `/a` can be performed. -/
theorem registration_run (h : Ready n w) (i : ι) (calls : ι → Prop) {reserved : PathBuf → Prop}
    (hrandom : random.length = TOKEN_BYTES)
    (hfree : w.names (sampleRegistry.entryPath token) = none) :
    (FileSystem.undisturbed reserved (Text.asBytes "/a") 0 sampleNode calls).Run w
      ((registrationCalls lib random token).map fun e => (i, e)) (registered lib token n w) := by
  have hentry := h.publish (entryPath_ne_a token) (lib.serdeJson.toVec (sampleEntry lib token))
  have hlatest := h.registered lib token
  rw [registrationCalls, ← List.append_assoc, List.map_append]
  refine Lts.Run.append (run_of_performs (fun _ hperforms => ⟨Or.inl hperforms, h.bound, h.bound⟩)
    (writtenCalls_performs h lib token hrandom)) ?_
  refine .step ⟨Or.inl (.persistNoclobber hfree (FileSystem.creates_publish _ (h.owned n le_rfl))),
    h.bound, hentry.bound⟩ ?_
  refine .step ⟨Or.inl (.writeTemporary _ _ _), hentry.bound, hentry.bound⟩ ?_
  exact .step ⟨Or.inl (.persist (FileSystem.creates_publish _ (hentry.owned (n + 1) le_rfl))),
    hentry.bound, hlatest.bound⟩ (.nil _)

/-- What another path names stays. -/
theorem registered_names {path : PathBuf} (hentry : path ≠ sampleRegistry.entryPath token)
    (hlatest : path ≠ sampleRegistry.latestPath) :
    (registered lib token n w).names path = w.names path :=
  (Function.update_of_ne hlatest ..).trans (Function.update_of_ne hentry ..)

/-- No file of the registry is there at first. -/
theorem fresh_sampleWorld : sampleRegistry.Fresh sampleWorld where
  free := by
    rintro path (⟨token, -, rfl⟩ | rfl)
    · rw [sampleWorld_names, if_neg (entryPath_ne_a token)]
    · rw [sampleWorld_names, if_neg latestPath_ne_a]

/-- The tokens of two registrations. -/
def sampleToken : Bool → String
  | false => "0000000000000"
  | true => "0000000000001"

/-- What the two registrations draw. -/
def sampleRandom : Bool → Bytes
  | false => [0, 0, 0, 0, 0, 0, 0, 0]
  | true => [0, 0, 0, 0, 0, 0, 0, 1]

theorem randomToken_sampleRandom (i : Bool) :
    randomToken (sampleRandom i) = .ok (sampleToken i) := by
  cases i <;> rfl

theorem isCanonicalToken_sampleToken (i : Bool) : IsCanonicalToken (sampleToken i) :=
  canonical_of_randomToken (randomToken_sampleRandom i)

/-- One registration of `/a`, and then another one. -/
def sampleLabels (lib : Libraries) : List (Bool × Event) :=
  ((registrationCalls lib (sampleRandom false) (sampleToken false)).map fun e => (false, e)) ++
    (registrationCalls lib (sampleRandom true) (sampleToken true)).map fun e => (true, e)

theorem sampleLabels_first (lib : Libraries) : (FileSystem.system Bool sampleRegistry.Reserved).Run
    sampleWorld
    ((registrationCalls lib (sampleRandom false) (sampleToken false)).map fun e => (false, e))
    (registered lib (sampleToken false) 1 sampleWorld) := by
  refine FileSystem.system_run_of_undisturbed
    (registration_run ready_sampleWorld false (fun _ => False) rfl ?_)
  exact fresh_sampleWorld.free _
    (sampleRegistry.reserved_entryPath (isCanonicalToken_sampleToken _))

theorem sampleLabels_second (lib : Libraries) : (FileSystem.system Bool sampleRegistry.Reserved).Run
    (registered lib (sampleToken false) 1 sampleWorld)
    ((registrationCalls lib (sampleRandom true) (sampleToken true)).map fun e => (true, e))
    (registered lib (sampleToken true) 3 (registered lib (sampleToken false) 1 sampleWorld)) := by
  have hreserved := sampleRegistry.reserved_entryPath (isCanonicalToken_sampleToken true)
  have hother : sampleRegistry.entryPath (sampleToken true) ≠
      sampleRegistry.entryPath (sampleToken false) := by
    intro h
    have htokens := entryPath_injective sampleRegistry (isCanonicalToken_sampleToken true)
      (isCanonicalToken_sampleToken false) h
    exact absurd htokens (by decide)
  refine FileSystem.system_run_of_undisturbed
    (registration_run (ready_sampleWorld.registered lib _) true (fun _ => False) rfl ?_)
  rw [registered_names hother (entryPath_ne_latestPath _ _)]
  exact fresh_sampleWorld.free _ hreserved

theorem sampleLabels_run (lib : Libraries) : (FileSystem.system Bool sampleRegistry.Reserved).Run
    sampleWorld (sampleLabels lib)
    (registered lib (sampleToken true) 3 (registered lib (sampleToken false) 1 sampleWorld)) :=
  (sampleLabels_first lib).append (sampleLabels_second lib)

theorem project_sampleLabels (lib : Libraries) (i : Bool) :
    project i (sampleLabels lib) = registrationCalls lib (sampleRandom i) (sampleToken i) := by
  rw [sampleLabels, Histories.project_append]
  cases i
  · rw [Histories.project_map_self, Histories.project_map_of_ne (by decide), List.append_nil]
  · rw [Histories.project_map_self, Histories.project_map_of_ne (by decide), List.nil_append]

theorem sampleLabels_returned (lib : Libraries) (i : Bool) :
    Returned sampleRegistry lib (fun _ => 3) (fun _ => .register (Text.asBytes "/a"))
      (sampleLabels lib) i (.registered (sampleEntry lib (sampleToken i))) := by
  rw [Returned, project_sampleLabels]
  exact registerCall_returns (randomToken_sampleRandom i)

theorem sampleLabels_obeys (lib : Libraries) :
    Obeys sampleRegistry lib (fun _ => 3) (fun _ => .register (Text.asBytes "/a"))
      (sampleLabels lib) :=
  fun i => ⟨_, sampleLabels_returned lib i⟩

theorem registered_entry :
    (registered lib token n w).names (sampleRegistry.entryPath token) = some n :=
  (Function.update_of_ne (entryPath_ne_latestPath _ _) ..).trans (Function.update_self ..)

theorem registered_latestFile :
    (registered lib token n w).names sampleRegistry.latestPath = some (n + 1) := by
  simp [registered, World.publish]

end Sample

/-! ### What holds of every history -/

section Histories

variable {ι : Type} [DecidableEq ι]

variable {registry : Registry} {lib : Libraries} {fuel : ι → ℕ} {call : ι → Call}
  {labels l₁ l₂ : List (ι × Event)} {w w' v : World} {i : ι} {entry : ArtifactRefV1}
  {path : PathBuf}

/-- A registration that has returned was one, and what it has done. -/
theorem Returned.registered (h : Returned registry lib fuel call labels i (.registered entry)) :
    ∃ requested canonical metadata digest, call i = .register requested ∧
      Registered registry lib (fuel i) requested canonical metadata digest entry
        (project i labels) := by
  rw [Returned] at h
  cases hcall : call i with
  | register requested =>
      rw [hcall] at h
      obtain ⟨e₁, entry', e₂, hregister, hret, heq⟩ := Prog.bind_returns_iff.1 h
      obtain ⟨rfl, hout⟩ := Prog.ret_returns_iff.1 hret
      obtain rfl := Outcome.registered.inj hout
      obtain ⟨canonical, metadata, digest, hregistered⟩ :=
        register_returns (Prog.mapError_returns_iff.1 hregister)
      rw [List.append_nil] at heq
      exact ⟨requested, canonical, metadata, digest, rfl, heq ▸ hregistered⟩
  | resolve reference =>
      rw [hcall] at h
      obtain ⟨e₁, path, e₂, -, hret, -⟩ := Prog.bind_returns_iff.1 h
      cases (Prog.ret_returns_iff.1 hret).2
  | resolveLatest =>
      rw [hcall] at h
      obtain ⟨e₁, path, e₂, -, hret, -⟩ := Prog.bind_returns_iff.1 h
      cases (Prog.ret_returns_iff.1 hret).2
  | load library path =>
      rw [hcall] at h
      obtain ⟨e₁, loaded, e₂, -, hret, -⟩ := Prog.bind_returns_iff.1 h
      cases (Prog.ret_returns_iff.1 hret).2

/-- A registration that has returned recorded its entry. -/
theorem Returned.recorded (h : Returned registry lib fuel call labels i (.registered entry)) :
    ∃ requested canonical, Recorded registry lib call labels i requested canonical entry := by
  obtain ⟨requested, canonical, metadata, digest, hcall, hregistered⟩ := h.registered
  obtain ⟨before, source, reads, after, hevents, -⟩ := hregistered.captured
  obtain ⟨ms, hentry⟩ := hregistered.recorded
  refine ⟨requested, canonical, hcall, hregistered.token, by rw [hentry]; rfl, ?_, ?_⟩
  · refine Histories.mem_project_iff.1 ?_
    rw [hevents]
    simp
  · refine Histories.mem_project_iff.1 (hregistered.published.subset ?_)
    exact List.mem_cons_self

/-- **An entry is never changed or removed**, whatever else happens. -/
theorem entries_never_change (registry : Registry) (lib : Libraries) (fuel : ι → ℕ)
    (call : ι → Call) (l₁ l₂ : List (ι × Event)) (w v w' : World) (token : String) (file : File)
    (hfresh : registry.Fresh w) (hobeys : Obeys registry lib fuel call (l₁ ++ l₂))
    (hbefore : (FileSystem.system ι registry.Reserved).Run w l₁ v)
    (hafter : (FileSystem.system ι registry.Reserved).Run v l₂ w')
    (htoken : IsCanonicalToken token) (hbound : v.names (registry.entryPath token) = some file) :
    FileSystem.Names (registry.entryPath token) file (v.nodes file) w' := by
  have hdoes := does_of_obeys hobeys
  have hfirst : ∀ past label rest, l₁ = past ++ label :: rest →
      Does registry lib call past label := by
    rintro past label rest rfl
    exact hdoes past label (rest ++ l₂) (by simp)
  obtain ⟨hentries, -⟩ := recorded_of_run hbefore hfresh hfirst
  obtain ⟨i, requested, canonical, entry, node, -, rfl, hkept, -⟩ :=
    hentries token file htoken hbound
  have hlast := hkept.of_run hafter (registry.reserved_entryPath htoken) fun label hlabel =>
    not_replaced_of_does hdoes entry.token label (List.mem_append_right _ hlabel)
  rw [hkept.nodes]
  exact hlast.bound

/-- The first of two entries stays when the second is registered. -/
theorem entries_never_change_two : FileSystem.Names (sampleRegistry.entryPath (sampleToken false)) 1
    ((registered compactLibraries (sampleToken false) 1 sampleWorld).nodes 1)
    (registered compactLibraries (sampleToken true) 3
      (registered compactLibraries (sampleToken false) 1 sampleWorld)) :=
  entries_never_change sampleRegistry compactLibraries (fun _ => 3)
    (fun _ => .register (Text.asBytes "/a")) _ _ sampleWorld _ _ _ 1 fresh_sampleWorld
    (sampleLabels_obeys _) (sampleLabels_first _) (sampleLabels_second _)
    (isCanonicalToken_sampleToken false) registered_entry

/-- **No two registrations return one token.** -/
theorem tokens_unique (registry : Registry) (lib : Libraries) (fuel : ι → ℕ) (call : ι → Call)
    (labels : List (ι × Event)) (w w' : World) (i j : ι) (entry entry' : ArtifactRefV1)
    (hrun : (FileSystem.system ι registry.Reserved).Run w labels w')
    (hobeys : Obeys registry lib fuel call labels)
    (hi : Returned registry lib fuel call labels i (.registered entry))
    (hj : Returned registry lib fuel call labels j (.registered entry')) (hne : i ≠ j) :
    entry.token ≠ entry'.token := by
  intro htoken
  obtain ⟨requested, canonical, hrecorded⟩ := hi.recorded
  obtain ⟨requested', canonical', hrecorded'⟩ := hj.recorded
  exact hne (hrecorded.unique hrun (does_of_obeys hobeys) hrecorded' htoken.symm).1.symm

theorem tokens_unique_two : (sampleEntry compactLibraries (sampleToken false)).token ≠
    (sampleEntry compactLibraries (sampleToken true)).token :=
  tokens_unique sampleRegistry compactLibraries (fun _ => 3)
    (fun _ => .register (Text.asBytes "/a"))
    _ sampleWorld _ false true _ _ (sampleLabels_run _) (sampleLabels_obeys _)
    (sampleLabels_returned _ false) (sampleLabels_returned _ true) (by decide)

/-- **The latest pointer names an entry**, in every state of every history. -/
theorem latest_never_dangles (registry : Registry) (lib : Libraries) (fuel : ι → ℕ)
    (call : ι → Call) (labels : List (ι × Event)) (w w' : World) (file : File)
    (hfresh : registry.Fresh w)
    (hrun : (FileSystem.system ι registry.Reserved).Run w labels w')
    (hobeys : Obeys registry lib fuel call labels)
    (hbound : w'.names registry.latestPath = some file) :
    ∃ i requested canonical entry entryFile,
      Recorded registry lib call labels i requested canonical entry ∧
      (w'.nodes file).content = Text.asBytes (latestText entry.token) ∧
      w'.names (registry.entryPath entry.token) = some entryFile ∧
      (w'.nodes entryFile).content = lib.serdeJson.toVec entry := by
  have hdoes := does_of_obeys hobeys
  obtain ⟨hentries, hlatest⟩ := recorded_of_run hrun hfresh hdoes
  obtain ⟨j, entry, node, htoken, hcreated, hkept, hcontent⟩ := hlatest file hbound
  -- the entry has been bound since it was created
  obtain ⟨l₁, l₂, rfl⟩ := List.append_of_mem hcreated
  obtain ⟨u, -, hrest⟩ := Lts.run_append_iff.1 hrun
  obtain ⟨s, t, -, hstep, hlast⟩ := Lts.run_cons_iff.1 hrest
  obtain ⟨entryFile, entryNode, hentry, hentryContent, -⟩ := FileSystem.kept_of_created hstep
  have hstays := hentry.of_run hlast (registry.reserved_entryPath htoken) fun label hlabel =>
    not_replaced_of_does hdoes entry.token label (by simp [hlabel])
  obtain ⟨i, requested, canonical, entry', node', hrecorded, htoken', hkept', hcontent', -⟩ :=
    hentries entry.token entryFile htoken hstays.names
  have hnode : node' = entryNode := hkept'.nodes.symm.trans hstays.nodes
  have hsame : entry' = entry := by
    have hread := congrArg lib.serdeJson.fromSlice (hcontent'.symm.trans (hnode ▸ hentryContent))
    rw [lib.serdeJson.fromSlice_toVec, lib.serdeJson.fromSlice_toVec] at hread
    exact Option.some.inj hread
  subst hsame
  refine ⟨i, requested, canonical, entry', entryFile, hrecorded, ?_, hstays.names, ?_⟩
  · rw [hkept.nodes, hcontent]
  · rw [hstays.nodes, hentryContent]

/-- The second of two registrations has replaced the pointer. -/
theorem latest_never_dangles_two : ∃ i requested canonical entry entryFile,
    Recorded sampleRegistry compactLibraries (fun _ => .register (Text.asBytes "/a"))
      (sampleLabels compactLibraries) i requested canonical entry ∧
    ((registered compactLibraries (sampleToken true) 3
      (registered compactLibraries (sampleToken false) 1 sampleWorld)).nodes 4).content =
        Text.asBytes (latestText entry.token) ∧
    (registered compactLibraries (sampleToken true) 3
      (registered compactLibraries (sampleToken false) 1 sampleWorld)).names
        (sampleRegistry.entryPath entry.token) = some entryFile ∧
    ((registered compactLibraries (sampleToken true) 3
      (registered compactLibraries (sampleToken false) 1 sampleWorld)).nodes entryFile).content =
        compactLibraries.serdeJson.toVec entry :=
  latest_never_dangles sampleRegistry compactLibraries (fun _ => 3)
    (fun _ => .register (Text.asBytes "/a")) _ sampleWorld _ 4 fresh_sampleWorld
    (sampleLabels_run _) (sampleLabels_obeys _) registered_latestFile

end Histories

end Registry

end TermInterop
