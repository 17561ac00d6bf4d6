/-
What a preview shows of an artifact that was offered.

A load of a short reference resolves it and then opens the path again.  Nothing ties the two opens
together, so the bytes that are shown are those that were registered only as long as the path stays
as it is from the first open to the last read: it names the same file, the file has the same bytes,
and the path is its own canonical form.

Main definitions:

* `TermInterop.Registry.Settled` — the file system while a path stays as it is.

Main results:

* `TermInterop.Registry.loaded_bytes_recorded` — **what is shown of a reference has the recorded
  digest**, when its path stays as it is;
* `TermInterop.Registry.replacement_loaded` — this is needed: any other bytes may be shown, when the
  file is written between the two opens;
* `TermInterop.Registry.offered_artifact_loads` — **what was offered is shown**.
-/

import TermInterop.Resolutions

set_option relaxedAutoImplicit false
set_option autoImplicit false

namespace TermInterop

open FileSystem (Event File Kept Node Performs World)
open Histories (project)

namespace Registry

-- what is used of the programs is what is proved about them
attribute [local irreducible] parseToken register resolve resolveLatest loadArtifact

/-! ### While a path stays as it is -/

section Settled

variable {ι : Type} [DecidableEq ι]

/-- **The file system while a path stays as it is**: it names one file with the same bytes, and is
its own canonical form. -/
def Settled (registry : Registry) (path : PathBuf) (file : File) (node : Node) (calls : ι → Prop) :
    Lts World (ι × Event) :=
  (FileSystem.undisturbed registry.Reserved path file node calls).within fun w =>
    w.canonical path = some path

variable {registry : Registry} {lib : Libraries} {fuel : ι → ℕ} {call : ι → Call}
  {l₀ l₁ l₂ labels : List (ι × Event)} {u v w : World} {i k : ι} {path canonical : PathBuf}
  {file : File} {node : Node} {calls : ι → Prop} {entry : ArtifactRefV1} {bytes : Bytes}

omit [DecidableEq ι] in
/-- What is said of the canonical form. -/
theorem canonicalize_of_settled (h : (Settled registry path file node calls).Run u labels v) :
    ∀ label ∈ labels, ∀ answer, label.2 = ⟨.canonicalize path, answer⟩ →
      answer = .ok path ∨ (FileSystem.Failed label.2 ∧ ¬ calls label.1) := by
  refine h.forall_mem_within ?_
  rintro s t ⟨j, e⟩ ⟨hstep, -⟩ hcanonical answer rfl
  rcases hstep with hperforms | ⟨hfailed, -, hcalls⟩
  · cases hperforms with
    | canonicalize hpath =>
        rw [hcanonical] at hpath
        exact Or.inl (by rw [Option.some.inj hpath])
    | canonicalizeMissing hmissing =>
        rw [hcanonical] at hmissing
        cases hmissing
  · exact Or.inr ⟨hfailed, hcalls⟩

/-- The bytes that are read of a path that stays as it is. -/
theorem loadPath_of_settled {events before after : List Event}
    (hrun : (Settled registry path file node calls).Run u labels v)
    (hproject : project i labels = before ++ (events ++ after))
    (h : (loadPath path).Returns events (canonical, bytes)) :
    canonical = path ∧ bytes = node.content := by
  obtain ⟨file', metadata, reads, rfl, hreads, -, hlength⟩ := loadPath_returns h
  have hmem : ∀ e ∈ ⟨.canonicalize path, .ok canonical⟩ :: ⟨.openFile canonical, .ok file'⟩ ::
      ⟨.metadata file', .ok metadata⟩ :: reads, (i, e) ∈ labels := fun e he =>
    Histories.mem_project_iff.1 (by
      rw [hproject]
      exact List.mem_append_right _ (List.mem_append_left _ he))
  have hsees : ∀ e, (i, e) ∈ labels → FileSystem.Failed e ∨ FileSystem.Sees path file node e :=
    fun e he => (FileSystem.sees_of_undisturbed hrun.of_within _ he).imp_left And.left
  have hcanonical : canonical = path := by
    rcases canonicalize_of_settled hrun _ (hmem _ List.mem_cons_self) _ rfl with hok | ⟨hfailed, -⟩
    · exact Except.ok.inj hok
    · cases hfailed
  subst hcanonical
  have hfile : file' = file := by
    rcases hsees _ (hmem _ (List.mem_cons_of_mem _ List.mem_cons_self)) with hfailed | hsee
    · cases hfailed
    · exact Except.ok.inj (hsee rfl)
  subst hfile
  obtain ⟨-, hwhole⟩ := FileSystem.readUntilEnd_returns hreads
    (fun e he => hsees e (hmem e (by simp [he]))) List.nil_prefix
  refine ⟨rfl, hwhole.resolve_left fun hnone => ?_⟩
  -- it has been read within its bound
  have hshort : DEFAULT_MAX_INPUT_BYTES + 1 - bytes.length = 0 := hnone
  omega

/-- The identity that was checked is that of the file. -/
theorem digest_of_settled {checks : List Event} {n : ℕ}
    (hrun : (Settled registry path file node calls).Run u labels v)
      (hchecks : checks ⊆ project i labels)
    (h : Revalidated lib n path entry.identity checks) :
    entry.identity.contentSha256Base64 = lib.b64.encode (lib.sha256.digest node.content) := by
  obtain ⟨source, metadata, reads, digest, rfl, hhash, -, hidentity⟩ := h.checked
  have hsource : source = file := by
    have hopened := Histories.mem_project_iff.1 (hchecks List.mem_cons_self)
    rcases FileSystem.sees_of_undisturbed hrun.of_within _ hopened with ⟨hfailed, -⟩ | hsee
    · cases hfailed
    · exact Except.ok.inj (hsee rfl)
  subst hsource
  rw [← hashFile_of_undisturbed hrun.of_within (fun e he => hchecks (by simp [he])) hhash,
    ← hidentity]
  rfl

/-! ### What is shown -/

/-- The reference `@latest` names no token. -/
theorem ne_latest_of_parseToken {reference token : String} (h : parseToken reference = .ok token) :
    reference ≠ "@latest" := by
  rintro rfl
  obtain ⟨⟨hlength, -⟩, hforms⟩ := parseToken_eq_ok_iff.1 h
  have hlatest : "@latest".toList.length = 7 := by decide
  rcases hforms with heq | heq | heq
  · rw [heq, String.toList_append, List.length_append] at hlatest
    omega
  · rw [heq, String.toList_append, List.length_append] at hlatest
    omega
  · rw [heq] at hlatest
    omega

/-- A reference that is given as an argument. -/
theorem referenceOf_asBytes {reference token : String} (htoken : IsCanonicalToken token)
    (hreference : reference = "@" ++ token ∨ reference = ARTIFACT_REF_URI_PREFIX ++ token) :
    referenceOf (Text.asBytes reference) = some reference := by
  have hascii : ∀ c ∈ reference.toList, c.toNat < 128 := by
    have hat : ∀ c ∈ "@".toList, c.toNat < 128 := by simp
    have huri : ∀ c ∈ ARTIFACT_REF_URI_PREFIX.toList, c.toNat < 128 := by
      simp [ARTIFACT_REF_URI_PREFIX]
    have htail : ∀ c ∈ token.toList, c.toNat < 128 :=
      fun c hc => ascii_of_tokenPattern (htoken.2 c hc)
    rcases hreference with rfl | rfl
    · rw [String.toList_append]
      exact List.forall_mem_append.2 ⟨hat, htail⟩
    · rw [String.toList_append]
      exact List.forall_mem_append.2 ⟨huri, htail⟩
  have hdecode : Utf8Lossy.decodeStrict (Text.asBytes reference) = some reference.toList := by
    rw [Utf8Lossy.decodeStrict, Utf8Lossy.decode_asBytes hascii, if_pos]
    rfl
  rw [referenceOf, hdecode, Option.map_some, String.ofList_toList, Option.filter_some, if_pos]
  refine decide_eq_true ?_
  rcases hreference with rfl | rfl
  · rw [String.toList_append]
    exact Or.inl (List.prefix_append _ _)
  · rw [String.toList_append]
    exact Or.inr (List.prefix_append _ _)

/-- **What is shown of a reference has the recorded digest**, when the recorded path stays as it is
while it is loaded. -/
theorem loaded_bytes_recorded (registry : Registry) (lib : Libraries) (fuel : ι → ℕ)
    (call : ι → Call) (l₁ l₂ : List (ι × Event)) (u v w : World) (i k : ι) (library : ImageLibrary)
    (argument requested path canonical : PathBuf) (reference : String) (file : File) (node : Node)
    (calls : ι → Prop) (entry : ArtifactRefV1) (artifact : PreparedArtifact)
    (hfresh : registry.Fresh u) (hobeys : Obeys registry lib fuel call (l₁ ++ l₂))
    (hbefore : (FileSystem.system ι registry.Reserved).Run u l₁ v)
    (hafter : (Settled registry path file node calls).Run v l₂ w) (hstart : project k l₁ = [])
    (hcall : call k = .load library argument) (hreference : referenceOf argument = some reference)
    (htoken : parseToken reference = .ok entry.token)
    (hrecorded : Recorded registry lib call (l₁ ++ l₂) i requested path entry)
    (hreturned : Returned registry lib fuel call (l₁ ++ l₂) k (.loaded canonical artifact)) :
    canonical = path ∧ prepareArtifact library node.content = .ok artifact ∧
      entry.identity.contentSha256Base64 = lib.b64.encode (lib.sha256.digest node.content) := by
  have hdoes := does_of_obeys hobeys
  have hrun := hbefore.append (FileSystem.system_run_of_undisturbed hafter.of_within)
  rw [Returned, hcall] at hreturned
  obtain ⟨e₁, ⟨canonical', artifact'⟩, e₂, hload, hret, hproject⟩ :=
    Prog.bind_returns_iff.1 hreturned
  obtain ⟨rfl, hout⟩ := Prog.ret_returns_iff.1 hret
  obtain ⟨rfl, rfl⟩ := Outcome.loaded.inj hout
  obtain ⟨resolved, bytes, e₃, e₄, rfl, hrequested, hpath, hprepared⟩ := loadArtifact_returns hload
  rw [List.append_nil] at hproject
  have hresolve := requestedPath_returns hreference hrequested
  rw [if_neg (ne_latest_of_parseToken htoken)] at hresolve
  -- the path that was resolved is the recorded one
  have hevents : project k (l₁ ++ l₂) = [] ++ (e₃ ++ e₄) := hproject
  obtain ⟨j, requested', entry', hrecorded', htoken', checks, hchecks, hchecked⟩ :=
    recorded_of_resolve hrun hfresh hdoes hevents hresolve
  obtain ⟨-, rfl⟩ := hrecorded.unique hrun hdoes hrecorded'
    (Except.ok.inj (htoken'.symm.trans htoken))
  obtain rfl : resolved = path :=
    lib.b64.encode_injective (hrecorded'.path.symm.trans hrecorded.path)
  rw [Histories.project_append, hstart, List.nil_append] at hproject
  have hsubset : checks ⊆ project k l₂ := by
    rw [hproject]
    exact fun e he => List.mem_append_left _ (hchecks.subset he)
  have hlast : project k l₂ = e₃ ++ (e₄ ++ []) := by rw [hproject, List.append_nil]
  obtain ⟨rfl, rfl⟩ := loadPath_of_settled hafter hlast hpath
  exact ⟨rfl, hprepared, digest_of_settled hafter hsubset hchecked⟩

end Settled

/-! ### A load -/

section Sample

variable {lib : Libraries} {library : ImageLibrary} {bytes : Bytes} {artifact : PreparedArtifact}
  {w : World}

/-- A library that knows no image. -/
def noDecoder : ImageLibrary :=
  ⟨fun _ => .error .unsupportedArtifact, fun _ _ _ => [], fun _ _ _ => .error ""⟩

theorem prepareArtifact_sampleContent :
    prepareArtifact noDecoder sampleContent = .ok (.text "hello\n") := rfl

theorem length_sampleContent_le : sampleContent.length ≤ DEFAULT_MAX_INPUT_BYTES := by decide

/-- The operations that read `/a` in one piece. -/
def contentReads (bytes : Bytes) : List Event :=
  ⟨.read 0 0 (DEFAULT_MAX_INPUT_BYTES + 1), .ok bytes⟩ ::
    if bytes = [] then []
    else [⟨.read 0 bytes.length (DEFAULT_MAX_INPUT_BYTES + 1 - bytes.length), .ok []⟩]

/-- The operations that load `/a`. -/
def contentCalls (bytes : Bytes) : List Event :=
  ⟨.canonicalize (Text.asBytes "/a"), .ok (Text.asBytes "/a")⟩ ::
    ⟨.openFile (Text.asBytes "/a"), .ok 0⟩ :: ⟨.metadata 0, .ok (contentNode bytes).metadata⟩ ::
      contentReads bytes

theorem contentReads_returns (hlength : bytes.length ≤ DEFAULT_MAX_INPUT_BYTES) :
    (FileSystem.readUntilEnd 0 (fun read => DEFAULT_MAX_INPUT_BYTES + 1 - read) LoadError.io
      (DEFAULT_MAX_INPUT_BYTES + 2) []).Returns (contentReads bytes) bytes := by
  rw [contentReads]
  by_cases hne : bytes = []
  · subst hne
    exact Prog.Reaches.perform (Prog.Reaches.here _)
  · rw [if_neg hne]
    exact FileSystem.readUntilEnd_returns_of_piece hne (by simp) (by omega)

theorem contentCalls_returns (hlength : bytes.length ≤ DEFAULT_MAX_INPUT_BYTES) :
    (loadPath (Text.asBytes "/a")).Returns (contentCalls bytes) (Text.asBytes "/a", bytes) := by
  have hlen : (UInt64.ofNat bytes.length).toNat ≤ DEFAULT_MAX_INPUT_BYTES := by
    rw [UInt64.toNat_ofNat']
    exact (Nat.mod_le _ _).trans hlength
  refine Prog.call_bind_returns_iff.2 ⟨.ok (Text.asBytes "/a"), _, rfl, ?_⟩
  refine FileSystem.attempt_bind_returns_iff.2 ⟨_, rfl, ?_⟩
  refine Prog.call_bind_returns_iff.2 ⟨.ok 0, _, rfl, ?_⟩
  refine FileSystem.attempt_bind_returns_iff.2 ⟨_, rfl, ?_⟩
  refine Prog.call_bind_returns_iff.2 ⟨_, _, rfl, ?_⟩
  refine FileSystem.attempt_bind_returns_iff.2 ⟨(contentNode bytes).metadata, rfl, ?_⟩
  refine Prog.ensure_bind_returns_iff.2 ⟨rfl, ?_⟩
  refine Prog.ensure_bind_returns_iff.2 ⟨decide_eq_true hlen, ?_⟩
  refine Prog.bind_returns_iff.2 ⟨_, bytes, [], contentReads_returns hlength, ?_,
    (List.append_nil _).symm⟩
  exact Prog.ensure_bind_returns_iff.2 ⟨decide_eq_true hlength, Prog.Reaches.here _⟩

theorem contentCalls_performs (hname : w.names (Text.asBytes "/a") = some 0)
    (hcanonical : w.canonical (Text.asBytes "/a") = some (Text.asBytes "/a"))
    (hnode : w.nodes 0 = contentNode bytes) (hlength : bytes.length ≤ DEFAULT_MAX_INPUT_BYTES) :
    ∀ e ∈ contentCalls bytes, Performs w e w := by
  have hreads : ∀ e ∈ contentReads bytes, Performs w e w := by
    refine List.forall_mem_cons.2 ⟨.read ?_, ?_⟩
    · rw [hnode]
      refine ⟨List.prefix_refl _, hlength.trans (Nat.le_succ _), fun hnil => Or.inr ?_⟩
      rw [contentNode, hnil]
      exact Nat.zero_le _
    · split
      · simp
      · rw [List.forall_mem_singleton]
        refine .read ?_
        rw [hnode]
        exact ⟨List.nil_prefix, Nat.zero_le _, fun _ => Or.inr le_rfl⟩
  refine List.forall_mem_cons.2 ⟨.canonicalize hcanonical, ?_⟩
  refine List.forall_mem_cons.2 ⟨.openFile hname, ?_⟩
  exact List.forall_mem_cons.2 ⟨performs_metadata hnode, hreads⟩

/-- The call that loads the first entry. -/
def sampleLoad (lib : Libraries) (library : ImageLibrary) : Call :=
  .load library (Text.asBytes (sampleEntry lib (sampleToken false)).shortRef)

/-- The bytes that are read are shown. -/
theorem sampleLoad_returns (hne : lib.serdeJson.toVec (sampleEntry lib (sampleToken false)) ≠ [])
    (hlength : bytes.length ≤ DEFAULT_MAX_INPUT_BYTES)
    (hprepare : prepareArtifact library bytes = .ok artifact) :
    ((sampleLoad lib library).prog sampleRegistry lib 16).Returns
      (resolutionCalls lib (sampleToken false) ++ contentCalls bytes)
      (.loaded (Text.asBytes "/a") artifact) := by
  have htoken := isCanonicalToken_sampleToken false
  have hrequested : (requestedPath lib (some sampleRegistry) 16
      (Text.asBytes (sampleEntry lib (sampleToken false)).shortRef)).Returns
        (resolutionCalls lib (sampleToken false)) (Text.asBytes "/a") := by
    have hreference : referenceOf (Text.asBytes (sampleEntry lib (sampleToken false)).shortRef) =
        some (sampleEntry lib (sampleToken false)).shortRef :=
          referenceOf_asBytes htoken (Or.inl rfl)
    rw [requestedPath, hreference]
    refine Prog.ofExcept_bind_returns_iff.2 ⟨sampleRegistry, rfl, ?_⟩
    rw [if_neg (ne_latest_of_parseToken (parseToken_handles htoken).1)]
    exact Prog.mapError_returns_iff.2 (resolution_returns false hne)
  have hload : (loadArtifact library lib (some sampleRegistry) 16
      (Text.asBytes (sampleEntry lib (sampleToken false)).shortRef)).Returns
        (resolutionCalls lib (sampleToken false) ++ contentCalls bytes)
        (Text.asBytes "/a", artifact) := by
    rw [loadArtifact]
    refine Prog.bind_returns_iff.2 ⟨_, _, _, hrequested, ?_, rfl⟩
    refine Prog.bind_returns_iff.2 ⟨_, _, [], contentCalls_returns hlength, ?_,
      (List.append_nil _).symm⟩
    exact Prog.ofExcept_bind_returns_iff.2 ⟨artifact, Checks.mapErr_eq_ok_iff.2 hprepare,
      Prog.Reaches.here _⟩
  exact Prog.bind_returns_iff.2 ⟨_, _, [], hload, Prog.Reaches.here _, (List.append_nil _).symm⟩

/-- A load while `/a` stays as it is. -/
theorem sampleLoad_run (h : Ready 1 w) (calls : Bool → Prop) {token : String}
    (hlength : (lib.serdeJson.toVec (sampleEntry lib token)).length ≤ MAX_ENTRY_BYTES) :
    (Settled sampleRegistry (Text.asBytes "/a") 0 sampleNode calls).Run (registered lib token 1 w)
      ((resolutionCalls lib token ++ contentCalls sampleContent).map fun e => (true, e))
      (registered lib token 1 w) := by
  have hready := h.registered lib token
  refine run_of_performs (fun _ hperforms => ⟨⟨Or.inl hperforms, hready.bound, hready.bound⟩,
    hready.canonical, hready.canonical⟩) ?_
  refine List.forall_mem_append.2 ⟨resolution_performs h hlength, ?_⟩
  exact contentCalls_performs hready.names hready.canonical hready.nodes length_sampleContent_le

/-- The registration of `/a` is recorded in the history that goes on with another call. -/
theorem recorded_labelsAfter (lib : Libraries) (call : Call) (events : List Event) :
    Recorded sampleRegistry lib (callAfter call) (labelsAfter lib events) false (Text.asBytes "/a")
      (Text.asBytes "/a") (sampleEntry lib (sampleToken false)) where
  call := rfl
  token := isCanonicalToken_sampleToken false
  path := rfl
  told := List.mem_append_left _ (List.mem_map_of_mem (by simp [registrationCalls, captureCalls]))
  created := List.mem_append_left _ (List.mem_map_of_mem (by
    simp only [registrationCalls, List.mem_append]
    exact Or.inr (Or.inr (List.mem_cons_self ..))))

/-- The file `/a` is shown as a text, and the digest of its bytes was recorded. -/
theorem loaded_bytes_recorded_one : Text.asBytes "/a" = Text.asBytes "/a" ∧
    prepareArtifact noDecoder sampleNode.content = .ok (.text "hello\n") ∧
    (sampleEntry compactLibraries (sampleToken false)).identity.contentSha256Base64 =
      compactLibraries.b64.encode (compactLibraries.sha256.digest sampleNode.content) := by
  have hne := toVec_compact_ne_nil (sampleEntry compactLibraries (sampleToken false))
  have hreturns := sampleLoad_returns hne length_sampleContent_le prepareArtifact_sampleContent
  exact loaded_bytes_recorded sampleRegistry compactLibraries sampleFuel
    (callAfter (sampleLoad compactLibraries noDecoder)) _ _ sampleWorld _ _ false true noDecoder _
    (Text.asBytes "/a") (Text.asBytes "/a") (Text.asBytes "/a") _ 0 sampleNode (fun _ => False)
    (sampleEntry compactLibraries (sampleToken false)) (.text "hello\n") fresh_sampleWorld
    (labelsAfter_obeys ⟨_, hreturns⟩) (sampleLabels_first compactLibraries)
    (sampleLoad_run ready_sampleWorld _ (length_sampleEntry_le _ false))
    (Histories.project_map_of_ne (by decide) _) rfl
    (referenceOf_asBytes (isCanonicalToken_sampleToken false) (Or.inl rfl))
    (parseToken_handles (isCanonicalToken_sampleToken false)).1 (recorded_labelsAfter _ _ _)
    (labelsAfter_returned hreturns)

/-- The file system in which `/a` has been written. -/
def rewritten (w : World) (bytes : Bytes) : World :=
  { w with nodes := Function.update w.nodes 0 (contentNode bytes) }

theorem rewritten_nodes (w : World) (bytes : Bytes) :
    (rewritten w bytes).nodes 0 = contentNode bytes := by
  simp [rewritten]

/-- Everybody may write `/a`. -/
theorem outside_rewritten (h : ¬ w.owned 0) (reserved : PathBuf → Prop) (bytes : Bytes) :
    FileSystem.Outside reserved w (rewritten w bytes) where
  names _ _ := rfl
  owned _ := Iff.rfl
  nodes file howned := Function.update_of_ne (by rintro rfl; exact h howned) _ _

/-- **Other bytes may be shown of a reference**: in some history a file is written after its
identity was checked and before it is read, and what is shown is made of the new bytes, whatever
they are. -/
theorem replacement_loaded (lib : Libraries) (library : ImageLibrary) (bytes : Bytes)
    (artifact : PreparedArtifact)
    (hne : lib.serdeJson.toVec (sampleEntry lib (sampleToken false)) ≠ [])
    (hlength : bytes.length ≤ DEFAULT_MAX_INPUT_BYTES)
    (hprepare : prepareArtifact library bytes = .ok artifact) : ∃ labels w',
    (FileSystem.system Bool sampleRegistry.Reserved).Run sampleWorld labels w' ∧
      Obeys sampleRegistry lib sampleFuel (callAfter (sampleLoad lib library)) labels ∧
      Recorded sampleRegistry lib (callAfter (sampleLoad lib library)) labels false
        (Text.asBytes "/a") (Text.asBytes "/a") (sampleEntry lib (sampleToken false)) ∧
      (sampleEntry lib (sampleToken false)).identity.contentSha256Base64 =
        lib.b64.encode (lib.sha256.digest sampleContent) ∧
      Returned sampleRegistry lib sampleFuel (callAfter (sampleLoad lib library)) labels true
        (.loaded (Text.asBytes "/a") artifact) := by
  have hreturns := sampleLoad_returns hne hlength hprepare
  have hready := ready_sampleWorld.registered lib (sampleToken false)
  have hresolved : (FileSystem.system Bool sampleRegistry.Reserved).Run
      (registered lib (sampleToken false) 1 sampleWorld)
      ((resolutionCalls lib (sampleToken false)).map fun e => (true, e))
      (registered lib (sampleToken false) 1 sampleWorld) :=
    FileSystem.system_run_of_undisturbed (resolution_run ready_sampleWorld true (fun _ => False)
      (length_sampleEntry_le lib false))
  have howned : ¬ (registered lib (sampleToken false) 1 sampleWorld).owned 0 := by
    simp [registered, World.publish, sampleWorld]
  have hloaded : (FileSystem.system Bool sampleRegistry.Reserved).Run
      (rewritten (registered lib (sampleToken false) 1 sampleWorld) bytes)
      ((contentCalls bytes).map fun e => (true, e))
      (rewritten (registered lib (sampleToken false) 1 sampleWorld) bytes) :=
    run_of_performs (fun _ => Or.inl) (contentCalls_performs hready.names hready.canonical
      (rewritten_nodes _ bytes) hlength)
  -- the file is written between the two
  have hrun := ((sampleLabels_first lib).append hresolved).append
    (.silent (outside_rewritten howned _ bytes) hloaded)
  rw [List.append_assoc, ← List.map_append] at hrun
  exact ⟨_, _, hrun, labelsAfter_obeys ⟨_, hreturns⟩, recorded_labelsAfter _ _ _, rfl,
    labelsAfter_returned hreturns⟩

end Sample

section Settled

variable {ι : Type} [DecidableEq ι]

/-! ### What was offered -/

/-- **What was offered is shown**: as long as no file-system operation of the load itself fails, a
load of the short reference or of the URI of a file that stays as it is waits for one, or has
returned what the bytes of the file are prepared to. -/
theorem offered_artifact_loads (registry : Registry) (lib : Libraries) (fuel : ι → ℕ)
    (call : ι → Call) (l₀ l₁ l₂ : List (ι × Event)) (u v w : World) (i k : ι)
    (library : ImageLibrary) (reference : String) (path : PathBuf) (file : File) (node : Node)
    (entry : ArtifactRefV1) (artifact : PreparedArtifact)
    (h : RegisteredBefore registry lib fuel call l₀ l₁ l₂ u v w i k path file node entry)
    (hafter : (Settled registry path file node (· = k)).Run v l₂ w)
    (hreference : reference = entry.shortRef ∨ reference = entry.uri)
    (hcall : call k = .load library (Text.asBytes reference))
    (hlength : node.content.length ≤ DEFAULT_MAX_INPUT_BYTES)
    (hprepare : prepareArtifact library node.content = .ok artifact)
    (hfuel : node.content.length < fuel k) :
    ∃ left, ((call k).prog registry lib (fuel k)).Reaches (project k l₂) left ∧
      ((∃ op next, left = .perform op next) ∨ left = .ret (.loaded path artifact)) := by
  obtain ⟨htoken, -, hfile, hlimit, -⟩ := h.recorded
  have hparse : parseToken reference = .ok entry.token := by
    rcases hreference with rfl | rfl
    · exact (parseToken_handles htoken).1
    · exact (parseToken_handles htoken).2.1
  have hcanonical : ∀ answer, (k, ⟨.canonicalize path, answer⟩) ∈ l₂ → answer = .ok path := by
    intro answer hmem
    rcases canonicalize_of_settled hafter _ hmem answer rfl with hok | ⟨-, hnot⟩
    · exact hok
    · exact absurd rfl hnot
  have hsees : ∀ e, (k, e) ∈ l₂ → FileSystem.Sees path file node e := by
    intro e he
    rcases FileSystem.sees_of_undisturbed h.after (k, e) he with ⟨-, hnot⟩ | hsee
    · exact absurd rfl hnot
    · exact hsee
  have hrequested : Prog.Ensures (fun e => (k, e) ∈ l₂) (fun p => p = path)
      (requestedPath lib (some registry) (fuel k) (Text.asBytes reference)) := by
    rw [requestedPath, referenceOf_asBytes htoken hreference]
    have hdiscover : Prog.Ensures (fun e => (k, e) ∈ l₂) (fun r => r = registry)
        (Prog.ofExcept (Checks.okOr (some registry) LoadError.stateDirectoryUnavailable) :
          FileSystem.Fs LoadError Registry) := Prog.Ensures.ofExcept rfl rfl
    refine hdiscover.bind ?_
    rintro _ rfl
    rw [if_neg (ne_latest_of_parseToken hparse)]
    exact (h.ensures hparse hfuel).mapError
  refine h.waiting_or_returned ?_
  rw [hcall]
  have hload : Prog.Ensures (fun e => (k, e) ∈ l₂) (fun loaded => loaded = (path, artifact))
      (loadArtifact library lib (some registry) (fuel k) (Text.asBytes reference)) := by
    rw [loadArtifact]
    refine hrequested.bind ?_
    rintro _ rfl
    refine (loadPath_ensures hcanonical hsees hfile hlimit hlength).bind ?_
    rintro _ rfl
    dsimp only
    rw [hprepare]
    rfl
  refine hload.bind ?_
  rintro _ rfl
  rfl

/-- A load of the short reference of `/a`. -/
theorem offered_artifact_loads_one : ∃ left,
    ((callAfter (sampleLoad compactLibraries noDecoder) true).prog sampleRegistry compactLibraries
      (sampleFuel true)).Reaches
        (project true ((resolutionCalls compactLibraries (sampleToken false) ++
          contentCalls sampleContent).map fun e => (true, e))) left ∧
      ((∃ op next, left = .perform op next) ∨
        left = .ret (.loaded (Text.asBytes "/a") (.text "hello\n"))) :=
  offered_artifact_loads sampleRegistry compactLibraries sampleFuel
    (callAfter (sampleLoad compactLibraries noDecoder)) [] _ _ sampleWorld _ _ false true noDecoder
    (sampleEntry compactLibraries (sampleToken false)).shortRef (Text.asBytes "/a") 0 sampleNode _
    (.text "hello\n")
    (registeredBefore_sample ⟨_, sampleLoad_returns (toVec_compact_ne_nil _)
        length_sampleContent_le prepareArtifact_sampleContent⟩
      (sampleLoad_run ready_sampleWorld _ (length_sampleEntry_le _ false)).of_within)
    (sampleLoad_run ready_sampleWorld _ (length_sampleEntry_le _ false)) (Or.inl rfl) rfl
    length_sampleContent_le prepareArtifact_sampleContent (by decide)

end Settled

end Registry

end TermInterop
