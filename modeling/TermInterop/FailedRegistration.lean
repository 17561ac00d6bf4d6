/-
What a registration leaves behind that fails.

A registration publishes two files: the entry of its token, and then the latest pointer.  Both take
their names in one step each, and everything before the first of these steps has no effect on the
registry.  So a registration that fails before has changed nothing, and one that fails between them
leaves its entry behind.

Main definitions:

* `FileSystem.alone` — the file system while nobody else uses it;
* `TermInterop.Registry.Unchanged` — the entries and the latest pointer are what they were;
* `TermInterop.Registry.LatestFails` — a step of the update of the latest pointer fails.

Main results:

* `TermInterop.Registry.failsSo_register` — what a registration that fails has published;
* `TermInterop.Registry.registration_atomic_iff` — **a registration that fails changes nothing**
  exactly when it was not the update of the latest pointer that failed.
-/

import TermInterop.Libraries

set_option relaxedAutoImplicit false
set_option autoImplicit false

namespace FileSystem

open TermInterop (Bytes PathBuf)

/-- **The file system while nobody else uses it**: an operation is performed, or fails without
effect. -/
def alone : Lts World Event where
  silent _ _ := False
  step w e w' := Performs w e w' ∨ (Failed e ∧ w' = w)

/-- An operation that has given a file its name. -/
def Publishes : Event → Prop
  | ⟨.persistNoclobber _ _, .ok ()⟩ => True
  | ⟨.persist _ _, .ok ()⟩ => True
  | _ => False

/-- The bytes of the file that a path names. -/
def World.contentAt (w : World) (path : PathBuf) : Option Bytes :=
  (w.names path).map fun file => (w.nodes file).content

section Alone

variable {w w' : World} {e : Event} {events : List Event}

theorem eq_of_alone_step (h : alone.step w e w') (hnone : ¬ Publishes e) : w' = w := by
  rcases h with hperforms | ⟨-, rfl⟩
  · cases hperforms with
    | persistNoclobber => exact absurd trivial hnone
    | persist => exact absurd trivial hnone
    | _ => rfl
  · rfl

/-- **Nothing changes as long as no file is given a name.** -/
theorem eq_of_alone_run (h : alone.Run w events w') (hnone : ∀ e ∈ events, ¬ Publishes e) :
    w' = w := by
  refine h.invariant (I := fun v => v = w) (fun hsilent => hsilent.elim) ?_ rfl
  rintro s t e he hstep rfl
  exact eq_of_alone_step hstep (hnone e he)

/-- A name that was taken was free, and is bound now. -/
theorem contentAt_of_persistNoclobber {bytes : Bytes} {path : PathBuf}
    (h : alone.step w ⟨.persistNoclobber bytes path, .ok ()⟩ w') :
    w.contentAt path = none ∧ w'.contentAt path = some bytes := by
  rcases h with hperforms | ⟨hfailed, -⟩
  · cases hperforms with
    | persistNoclobber hfree hcreates =>
        obtain ⟨file, -, hnames, hcontent, -⟩ := hcreates.created
        simp [World.contentAt, hfree, hnames, hcontent]
  · cases hfailed

/-- A new file takes a name. -/
def World.publish (w : World) (path : PathBuf) (bytes : Bytes) (file : File) : World where
  names := Function.update w.names path (some file)
  canonical := w.canonical
  nodes := Function.update w.nodes file
    ⟨⟨true, UInt64.ofNat bytes.length, none, 0, UInt64.ofNat file⟩, bytes⟩
  owned := fun other => other = file ∨ w.owned other
  canonical_valid := w.canonical_valid

theorem creates_publish {path : PathBuf} {file : File} (bytes : Bytes) (h : ¬ w.owned file) :
    Creates w path bytes (w.publish path bytes file) where
  created := by
    refine ⟨file, h, Function.update_self .., ?_⟩
    simp only [World.publish, Function.update_self, true_and, implies_true, and_true]
    exact fun other hother => Function.update_of_ne hother ..
  names _ hother := Function.update_of_ne hother ..
  canonical _ _ := rfl

end Alone

end FileSystem

namespace TermInterop

open FileSystem (Event Fs FsOp Node Performs World Publishes alone attempt readUntilEnd)

namespace Registry

variable (registry : Registry)

/-- The entries of a registry and its latest pointer are what they were. -/
structure Unchanged (w w' : World) : Prop where
  entries : ∀ token, w'.contentAt (registry.entryPath token) =
    w.contentAt (registry.entryPath token)
  latest : w'.contentAt registry.latestPath = w.contentAt registry.latestPath

/-- **A step of the update of the latest pointer fails**: its temporary file is not written in the
root of the registry, or does not get its name. -/
def LatestFails : Event → Prop
  | ⟨.writeTemporary directory _, .error _⟩ => directory = registry.root
  | ⟨.persist _ path, .error _⟩ => path = registry.latestPath
  | _ => False

variable {registry} {lib : Libraries} {events : List Event}

/-- The root of a registry is not the directory of its entries. -/
theorem refsDir_ne_root : registry.refsDir ≠ registry.root := by
  intro h
  have hrefs : Text.asBytes "refs" = [0x72, 0x65, 0x66, 0x73] := by decide
  have hlength := congrArg List.length h
  rw [refsDir, hrefs, join_eq (by decide), List.length_append] at hlength
  have hdirectory : registry.root.length ≤ (directory registry.root).length := by
    unfold directory
    split_ifs with hnil hslash
    · rw [hnil]
    · exact le_refl _
    · rw [List.length_append]
      exact Nat.le_add_right _ _
  simp only [List.length_cons, List.length_nil] at hlength
  omega

/-! ### The steps before anything is published -/

/-- A step of a registration that publishes nothing and is no failure of the update of the latest
pointer. -/
def Early (registry : Registry) (e : Event) : Prop := ¬ Publishes e ∧ ¬ LatestFails registry e

theorem ReadsOrMakes.early {e : Event} (h : ReadsOrMakes e) : Early registry e := by
  obtain ⟨op, answer⟩ := e
  cases op with
  | writeTemporary directory bytes => cases h
  | persistNoclobber bytes path => cases h
  | persist bytes path => cases h
  | _ => exact ⟨id, id⟩

/-! ### What has been published -/

/-- **What a registration has published that fails**: nothing, or its entry, and then it is the
update of the latest pointer that fails. -/
inductive Failure (registry : Registry) : List Event → Prop
  | early {events : List Event} : (∀ e ∈ events, Early registry e) → Failure registry events
  | late {before after : List Event} {bytes : Bytes} {token : String} :
      (∀ e ∈ before, ¬ Publishes e) → (∀ e ∈ after, ¬ Publishes e) →
        (∃ e ∈ after, LatestFails registry e) →
        Failure registry (before ++ ⟨.persistNoclobber bytes (registry.entryPath token), .ok ()⟩ ::
          after)

theorem Failure.prepend {first : List Event} (hfirst : ∀ e ∈ first, Early registry e)
    (h : Failure registry events) : Failure registry (first ++ events) := by
  cases h with
  | early hevents => exact .early (List.forall_mem_append.2 ⟨hfirst, hevents⟩)
  | late hbefore hafter hfails =>
      rw [← List.append_assoc]
      exact .late (List.forall_mem_append.2 ⟨fun e he => (hfirst e he).1, hbefore⟩) hafter hfails

/-- A program that fails in one of these ways. -/
abbrev FailsSo {α : Type} (registry : Registry) (x : Fs RegistryError α) : Prop :=
  ∀ events error, x.Ends events (.error error) → Failure registry events

theorem FailsSo.bind {α β : Type} {x : Fs RegistryError α} {f : α → Fs RegistryError β}
    (hx : Reading x) (hf : ∀ a, FailsSo registry (f a)) : FailsSo registry (x >>= f) := by
  intro events error h
  rcases Prog.bind_ends_iff.1 h with ⟨error', hfirst, -⟩ | ⟨e₁, a, e₂, hfirst, hsecond, rfl⟩
  · exact .early fun e he => ((hx []).forall_mem hfirst e he).early
  · exact (hf a _ _ hsecond).prepend fun e he => ((hx []).forall_mem hfirst e he).early

/-- When the update of the latest pointer fails, one of its steps has failed. -/
theorem writeLatest_ends_error {token : String} {error : RegistryError}
    (h : (writeLatest registry token).Ends events (.error error)) :
    (∀ e ∈ events, ¬ Publishes e) ∧ ∃ e ∈ events, LatestFails registry e := by
  obtain ⟨written, rest, rfl, hrest⟩ := Prog.perform_ends_iff.1 h
  cases written with
  | error kind =>
      obtain ⟨rfl, -⟩ := Prog.fail_ends_iff.1 hrest
      exact ⟨by simp [Publishes], _, List.mem_singleton_self _, rfl⟩
  | ok u =>
      obtain ⟨persisted, rest', rfl, hlast⟩ := Prog.perform_ends_iff.1 hrest
      cases persisted with
      | error kind =>
          obtain ⟨rfl, -⟩ := Prog.fail_ends_iff.1 hlast
          exact ⟨by simp [Publishes], _, List.mem_cons_of_mem _ (List.mem_singleton_self _), rfl⟩
      | ok u =>
          obtain ⟨-, hok⟩ := Prog.ret_ends_iff.1 hlast
          cases hok

/-- **How the attempts to persist an entry fail.** -/
theorem failsSo_allocate {entry : String → ArtifactRefV1} {attempts : ℕ} :
    FailsSo registry (allocate registry lib entry attempts) := by
  induction attempts with
  | zero =>
      intro events error h
      obtain ⟨rfl, -⟩ := Prog.fail_ends_iff.1 h
      exact .early (by simp)
  | succ attempts ih =>
      have hfresh : Reading freshToken :=
        .bind (reading_call fun _ => trivial) fun _ => .bind reading_ofExcept fun _ =>
          reading_ofExcept
      refine .bind hfresh fun token events error h => ?_
      obtain ⟨written, rest, rfl, hrest⟩ := Prog.perform_ends_iff.1 h
      cases written with
      | error kind =>
          obtain ⟨rfl, -⟩ := Prog.fail_ends_iff.1 hrest
          refine .early ?_
          rw [List.forall_mem_singleton]
          exact ⟨id, refsDir_ne_root⟩
      | ok u =>
          obtain ⟨persisted, rest', rfl, hpersisted⟩ := Prog.perform_ends_iff.1 hrest
          have hwritten : Early registry ⟨.writeTemporary registry.refsDir
              (lib.serdeJson.toVec (entry token)), .ok ()⟩ := ⟨id, id⟩
          cases persisted with
          | ok u =>
              -- the entry has its name, and only the update of the latest pointer is left
              have hlatest : (writeLatest registry token >>= fun _ =>
                  (.ret (entry token) : Fs RegistryError ArtifactRefV1)).Ends rest'
                    (.error error) := hpersisted
              rcases Prog.bind_ends_iff.1 hlatest with ⟨error', hfails, -⟩ |
                ⟨e₁, _, e₂, -, hret, rfl⟩
              · obtain ⟨hnone, hsome⟩ := writeLatest_ends_error hfails
                have hlate : Failure registry ([⟨.writeTemporary registry.refsDir
                    (lib.serdeJson.toVec (entry token)), .ok ()⟩] ++
                      ⟨.persistNoclobber (lib.serdeJson.toVec (entry token))
                        (registry.entryPath token), .ok ()⟩ :: rest') :=
                  .late (by simp [Publishes]) hnone hsome
                exact hlate
              · obtain ⟨-, hok⟩ := Prog.ret_ends_iff.1 hret
                cases hok
          | error kind =>
              have hrefused : Early registry ⟨.persistNoclobber (lib.serdeJson.toVec (entry token))
                  (registry.entryPath token), .error kind⟩ := ⟨id, id⟩
              have hboth : ∀ e ∈ [(⟨.writeTemporary registry.refsDir
                  (lib.serdeJson.toVec (entry token)), .ok ()⟩ : Event),
                  ⟨.persistNoclobber (lib.serdeJson.toVec (entry token))
                    (registry.entryPath token), .error kind⟩], Early registry e := by
                simp only [List.forall_mem_cons, List.not_mem_nil, false_imp_iff, implies_true,
                  and_true]
                exact ⟨hwritten, hrefused⟩
              by_cases htaken : kind = .alreadyExists
              · subst htaken
                exact Failure.prepend hboth (ih rest' error hpersisted)
              · have hrest' : rest' = [] := by
                  cases kind with
                  | alreadyExists => exact absurd rfl htaken
                  | _ => exact (Prog.fail_ends_iff.1 hpersisted).1
                rw [hrest']
                exact .early hboth

/-- **What a registration has published that fails.** -/
theorem failsSo_register {fuel : ℕ} {path : PathBuf} :
    FailsSo registry (register registry lib fuel path) := by
  refine .bind reading_ensureDirs fun _ => ?_
  refine .bind (reading_call fun _ => trivial) fun _ => .bind reading_ofExcept fun canonical => ?_
  refine .bind (reading_call fun _ => trivial) fun _ => .bind reading_ofExcept fun source => ?_
  refine .bind (reading_call fun _ => trivial) fun _ => .bind reading_ofExcept fun metadata => ?_
  refine .bind (fun _ => Prog.Always.ensure) fun _ =>
    .bind (fun _ => Prog.Always.ensure) fun _ => ?_
  refine .bind reading_hashFile fun digest => .bind reading_unixTimeMs fun registeredAtUnixMs => ?_
  exact failsSo_allocate

/-! ### What has changed -/

/-- **A registration that fails changes nothing** exactly when it was not a step of the update of
the latest pointer that failed. -/
theorem registration_atomic_iff (registry : Registry) (lib : Libraries) (fuel : ℕ) (path : PathBuf)
    (w w' : World) (events : List Event) (error : RegistryError)
    (hends : (register registry lib fuel path).Ends events (.error error))
    (hrun : alone.Run w events w') :
    Unchanged registry w w' ↔ ∀ e ∈ events, ¬ LatestFails registry e := by
  cases failsSo_register events error hends with
  | early hevents =>
      obtain rfl := FileSystem.eq_of_alone_run hrun fun e he => (hevents e he).1
      exact iff_of_true ⟨fun _ => rfl, rfl⟩ fun e he => (hevents e he).2
  | @late before after bytes token hbefore hafter hfails =>
      obtain ⟨v, hv, hrest⟩ := Lts.run_append_iff.1 hrun
      obtain ⟨v', v'', hsilent, hstep, hlast⟩ := Lts.run_cons_iff.1 hrest
      obtain rfl := FileSystem.eq_of_alone_run hv hbefore
      obtain rfl := FileSystem.eq_of_alone_run hsilent (by simp)
      obtain rfl := FileSystem.eq_of_alone_run hlast hafter
      obtain ⟨hfree, hbound⟩ := FileSystem.contentAt_of_persistNoclobber hstep
      refine iff_of_false (fun hunchanged => ?_) (fun hnone => ?_)
      · have hentry := hunchanged.entries token
        rw [hfree, hbound] at hentry
        cases hentry
      · obtain ⟨e, he, hfail⟩ := hfails
        exact hnone e (by simp [he]) hfail

/-! ### Two registrations that fail -/

section Sample

variable {lib : Libraries} {random : Bytes} {token : String} {w : World} {n : ℕ}

/-- A registry in `/r`. -/
def sampleRegistry : Registry := ⟨Text.asBytes "/r"⟩

/-- A regular file with some bytes. -/
def contentNode (bytes : Bytes) : Node := ⟨⟨true, UInt64.ofNat bytes.length, none, 0, 0⟩, bytes⟩

/-- The bytes of the file `/a`. -/
def sampleContent : Bytes := Text.asBytes "hello\n"

/-- The file `/a`. -/
def sampleNode : Node := contentNode sampleContent

/-- The only file is `/a`. -/
def sampleWorld : World where
  names path := if path = Text.asBytes "/a" then some 0 else none
  canonical path := if path = Text.asBytes "/a" then some path else none
  nodes _ := sampleNode
  owned _ := False
  canonical_valid := by
    intro path p h
    split at h
    · rename_i hpath
      obtain rfl := Option.some.inj h
      rw [hpath]
      exact ⟨by decide, by decide, by decide⟩
    · cases h

theorem sampleWorld_names (path : PathBuf) :
    sampleWorld.names path = if path = Text.asBytes "/a" then some 0 else none := rfl

theorem sampleWorld_canonical (path : PathBuf) :
    sampleWorld.canonical path = if path = Text.asBytes "/a" then some path else none := rfl

/-- The file `/a` is there, and no file from some number on is owned. -/
structure Ready (n : ℕ) (w : World) : Prop where
  names : w.names (Text.asBytes "/a") = some 0
  canonical : w.canonical (Text.asBytes "/a") = some (Text.asBytes "/a")
  nodes : w.nodes 0 = sampleNode
  pos : 0 < n
  owned : ∀ file, n ≤ file → ¬ w.owned file

theorem ready_sampleWorld : Ready 1 sampleWorld where
  names := by rw [sampleWorld_names, if_pos rfl]
  canonical := by rw [sampleWorld_canonical, if_pos rfl]
  nodes := rfl
  pos := Nat.one_pos
  owned _ _ := id

/-- The operations that read `/a`: two pieces, and its end. -/
def sampleReads : List Event :=
  [⟨.read 0 0 (64 * 1024), .ok (sampleContent.take 4)⟩,
    ⟨.read 0 4 (64 * 1024), .ok (sampleContent.drop 4)⟩, ⟨.read 0 6 (64 * 1024), .ok []⟩]

theorem sampleReads_returns (lib : Libraries) (more : ℕ) : (hashFile lib (more + 3) 0).Returns
    sampleReads (lib.b64.encode (lib.sha256.digest sampleContent)) :=
  Prog.Reaches.perform (Prog.Reaches.perform (Prog.Reaches.perform (Prog.Reaches.here _)))

theorem sampleReads_performs (h : w.nodes 0 = sampleNode) : ∀ e ∈ sampleReads, Performs w e w := by
  have hcontent : (w.nodes 0).content = sampleContent := by rw [h]; rfl
  simp only [sampleReads, List.forall_mem_cons, List.not_mem_nil, false_imp_iff, implies_true,
    and_true]
  refine ⟨.read ?_, .read ?_, .read ?_⟩
  all_goals
    rw [hcontent]
    exact ⟨by decide, by decide, by decide⟩

/-- The entry of `/a` under a token. -/
def sampleEntry (lib : Libraries) (token : String) : ArtifactRefV1 :=
  newEntry lib (Text.asBytes "/a")
    (fileIdentity sampleNode.metadata (lib.b64.encode (lib.sha256.digest sampleContent))) 0 token

/-- The directories of the registry are there. -/
def directoryCalls : List Event :=
  [⟨.createDirAll sampleRegistry.refsDir, .ok ()⟩,
    ⟨.setPermissions sampleRegistry.root 0o700, .ok ()⟩,
    ⟨.setPermissions sampleRegistry.refsDir 0o700, .ok ()⟩]

/-- The operations of a registration of `/a`, until a token is chosen. -/
def captureCalls : List Event :=
  directoryCalls ++ [⟨.canonicalize (Text.asBytes "/a"), .ok (Text.asBytes "/a")⟩,
    ⟨.openFile (Text.asBytes "/a"), .ok 0⟩, ⟨.metadata 0, .ok sampleNode.metadata⟩] ++
      sampleReads ++ [⟨.now, some 0⟩]

/-- What is left of the registration then is the choice of a token. -/
theorem captureCalls_reaches (lib : Libraries) :
    (register sampleRegistry lib 3 (Text.asBytes "/a")).Reaches captureCalls
      (allocate sampleRegistry lib (sampleEntry lib) 16) := by
  refine .perform (.perform (.perform (.perform (.perform (.perform ?_)))))
  refine ((sampleReads_returns lib 0).bind_left).append ?_
  exact .perform (.here _)

theorem captureCalls_performs (h : Ready n w) : ∀ e ∈ captureCalls, Performs w e w := by
  have hmetadata : Performs w ⟨.metadata 0, .ok sampleNode.metadata⟩ w := by
    rw [← h.nodes]
    exact .metadata w 0
  simp only [captureCalls, directoryCalls, List.forall_mem_append, List.forall_mem_cons,
    List.not_mem_nil, false_imp_iff, implies_true, and_true]
  exact ⟨⟨⟨⟨.createDirAll _ _, .setPermissions _ _ _, .setPermissions _ _ _⟩,
    .canonicalize h.canonical, .openFile h.names, hmetadata⟩, sampleReads_performs h.nodes⟩,
      .now _ _⟩

/-- The operation that draws a token. -/
theorem freshToken_of_randomToken (h : randomToken random = .ok token) :
    freshToken.Returns [⟨.random TOKEN_BYTES, some random⟩] token := by
  refine Prog.call_bind_returns_iff.2 ⟨some random, [], rfl, ?_⟩
  exact Prog.ofExcept_bind_returns_iff.2 ⟨random, rfl, Prog.ofExcept_returns_iff.2 ⟨rfl, h⟩⟩

/-- No entry of the registry is the file `/a`. -/
theorem entryPath_ne_a (token : String) : sampleRegistry.entryPath token ≠ Text.asBytes "/a" := by
  have hjson : Text.asBytes ".json" = [0x2E, 0x6A, 0x73, 0x6F, 0x6E] := by decide
  have ha : Text.asBytes "/a" = [0x2F, 0x61] := by decide
  intro heq
  have hlast := congrArg List.getLast? heq
  rw [entryPath, getLast?_join (by simp [hjson]), Text.asBytes_append, hjson, ha,
    List.getLast?_append_of_ne_nil _ (by simp)] at hlast
  exact absurd hlast (by decide)

/-- A token is drawn, and its entry is written. -/
def writtenCalls (lib : Libraries) (random : Bytes) (token : String) : List Event :=
  [⟨.random TOKEN_BYTES, some random⟩,
    ⟨.writeTemporary sampleRegistry.refsDir (lib.serdeJson.toVec (sampleEntry lib token)), .ok ()⟩]

/-- Until its entry is given a name, a registration of `/a` changes nothing. -/
theorem writtenCalls_performs (h : Ready n w) (lib : Libraries) (token : String)
    (hrandom : random.length = TOKEN_BYTES) :
    ∀ e ∈ captureCalls ++ writtenCalls lib random token, Performs w e w := by
  refine List.forall_mem_append.2 ⟨captureCalls_performs h, ?_⟩
  simp only [writtenCalls, List.forall_mem_cons, List.not_mem_nil, false_imp_iff, implies_true,
    and_true]
  exact ⟨.random hrandom, .writeTemporary _ _ _⟩

theorem writtenCalls_run (lib : Libraries) (token : String)
    (hrandom : random.length = TOKEN_BYTES) :
    alone.Run sampleWorld (captureCalls ++ writtenCalls lib random token) sampleWorld :=
  Lts.run_of_forall_step fun e he =>
    Or.inl (writtenCalls_performs ready_sampleWorld lib token hrandom e he)

/-- The entry of `/a` is refused its name, and nothing has changed. -/
theorem registration_atomic_iff_refused :
    ∃ bytes path events, (register sampleRegistry compactLibraries 3 (Text.asBytes "/a")).Ends
        events (.error (.io (.other 28))) ∧
      ⟨.persistNoclobber bytes path, .error (.other 28)⟩ ∈ events ∧
      alone.Run sampleWorld events sampleWorld ∧
      Unchanged sampleRegistry sampleWorld sampleWorld := by
  generalize compactLibraries = lib
  obtain ⟨token, htoken⟩ : ∃ token, randomToken (List.replicate 8 0) = .ok token := ⟨_, rfl⟩
  have hends : (register sampleRegistry lib 3 (Text.asBytes "/a")).Ends
      (captureCalls ++ (writtenCalls lib (List.replicate 8 0) token ++
        [⟨.persistNoclobber (lib.serdeJson.toVec (sampleEntry lib token))
          (sampleRegistry.entryPath token), .error (.other 28)⟩])) (.error (.io (.other 28))) := by
    refine (captureCalls_reaches lib).append ?_
    -- only the error of a name that is taken would lead to another token
    refine Prog.bind_ends_iff.2 (Or.inr ⟨_, token, _, freshToken_of_randomToken htoken, ?_, rfl⟩)
    exact .perform (.perform (.here _))
  have hrun := (@writtenCalls_run (List.replicate 8 0) lib token rfl).append
    (.step (Or.inr ⟨.persistNoclobber (lib.serdeJson.toVec (sampleEntry lib token))
      (sampleRegistry.entryPath token) (.other 28) (by simp), rfl⟩) (.nil _))
  rw [List.append_assoc] at hrun
  refine ⟨lib.serdeJson.toVec (sampleEntry lib token), sampleRegistry.entryPath token, _, hends,
    by simp, hrun, ?_⟩
  refine (registration_atomic_iff sampleRegistry lib 3 (Text.asBytes "/a") sampleWorld
    sampleWorld _ _ hends hrun).2 ?_
  simp [captureCalls, directoryCalls, sampleReads, writtenCalls, LatestFails]

/-- The entry of `/a` has its name when the update of the latest pointer fails: the registration has
failed, and its entry stays. -/
theorem entry_left_behind :
    ∃ w' events error, (register sampleRegistry compactLibraries 3 (Text.asBytes "/a")).Ends events
        (.error error) ∧
      alone.Run sampleWorld events w' ∧ ¬ Unchanged sampleRegistry sampleWorld w' := by
  generalize compactLibraries = lib
  obtain ⟨token, htoken⟩ : ∃ token, randomToken (List.replicate 8 0) = .ok token := ⟨_, rfl⟩
  have hfree : sampleWorld.names (sampleRegistry.entryPath token) = none := by
    rw [sampleWorld_names, if_neg (entryPath_ne_a token)]
  refine ⟨sampleWorld.publish (sampleRegistry.entryPath token)
      (lib.serdeJson.toVec (sampleEntry lib token)) 1,
    captureCalls ++ (writtenCalls lib (List.replicate 8 0) token ++
      [⟨.persistNoclobber (lib.serdeJson.toVec (sampleEntry lib token))
        (sampleRegistry.entryPath token), .ok ()⟩,
        ⟨.writeTemporary sampleRegistry.root (Text.asBytes (latestText token)),
          .error (.other 28)⟩]), .io (.other 28), ?_, ?_, ?_⟩
  · refine (captureCalls_reaches lib).append ?_
    refine Prog.bind_ends_iff.2 (Or.inr ⟨_, token, _, freshToken_of_randomToken htoken, ?_, rfl⟩)
    exact .perform (.perform (.perform (.here _)))
  · rw [← List.append_assoc]
    refine (writtenCalls_run lib token rfl).append ?_
    refine .step (Or.inl (.persistNoclobber hfree (FileSystem.creates_publish _
      (ready_sampleWorld.owned 1 le_rfl)))) ?_
    exact .step (Or.inr ⟨.writeTemporary _ _ _, rfl⟩) (.nil _)
  · intro hunchanged
    have hstays := hunchanged.entries token
    simp [World.contentAt, World.publish, hfree] at hstays

end Sample

end Registry

end TermInterop
