/-
Resolutions on one registry, while other calls register.

What a resolution returns was recorded under the token that it was asked for, whatever happens while
it runs; and it returns when the file that was registered stays as it is.  The second is said
without fairness: a resolution that does not fail on its way either waits for its next operation, or
has returned the path.

Main definitions:

* `TermInterop.Registry.RegisteredBefore` — a registration of a file that stays as it is.

Main results:

* `TermInterop.Registry.recorded_of_readEntry` — a stored entry that is read was recorded;
* `TermInterop.Registry.resolutions_recorded` — **a resolution returns a path that was recorded for
  its token**, after it has seen the recorded identity there;
* `TermInterop.Registry.registered_resolves`, `TermInterop.Registry.registered_latest` — **after a
  registration of a file that stays as it is, its path is returned**.
-/

import TermInterop.Registrations

set_option relaxedAutoImplicit false
set_option autoImplicit false

namespace TermInterop

open FileSystem (Event File Kept Node Performs World attempt_bind_returns_iff readUntilEnd)
open Histories (project)

namespace Registry

-- what is used of the programs is what is proved about them
attribute [local irreducible] parseToken register resolve resolveLatest loadArtifact

/-! ### What resolutions return -/

section Resolutions

variable {ι : Type} [DecidableEq ι] {registry : Registry} {lib : Libraries} {fuel : ι → ℕ}
  {call : ι → Call} {labels : List (ι × Event)} {w w' : World} {k : ι} {path : PathBuf}

/-- **A stored entry that is read was recorded**, whatever happens while it is read. -/
theorem recorded_of_readEntry {token : String} {bytes : Bytes} {before e₁ e₂ : List Event}
    (hrun : (FileSystem.system ι registry.Reserved).Run w labels w') (hfresh : registry.Fresh w)
    (hdoes : ∀ past label rest, labels = past ++ label :: rest → Does registry lib call past label)
    (hproject : project k labels = before ++ (e₁ ++ e₂)) (htoken : IsCanonicalToken token)
    (hread : (readEntry registry token).Returns e₁ bytes) :
    ∃ i requested canonical entry, Recorded registry lib call labels i requested canonical entry ∧
      entry.token = token ∧ bytes = lib.serdeJson.toVec entry := by
  obtain ⟨file, metadata, reads, rfl, hreads, hlength⟩ := readEntry_returns hread
  obtain ⟨l₁, l₂, rfl, -, hafter⟩ := Histories.exists_of_project_eq_append hproject
  obtain ⟨u, hfirst, hrest⟩ := Lts.run_append_iff.1 hrun
  obtain ⟨s, t, hsilent, hstep, hlast⟩ := Lts.run_cons_iff.1 hrest
  -- the entry was bound when it was opened
  have hopened : s.names (registry.entryPath token) = some file ∧ t = s := by
    rcases hstep with hperforms | ⟨hfailed, -⟩
    · cases hperforms with
      | openFile hnames => exact ⟨hnames, rfl⟩
    · cases hfailed
  obtain ⟨hnames, rfl⟩ := hopened
  have hbefore : (FileSystem.system ι registry.Reserved).Run w l₁ t := by
    have := hfirst.append hsilent
    rwa [List.append_nil] at this
  obtain ⟨hentries, -⟩ := recorded_of_run hbefore hfresh fun past label rest heq =>
    hdoes past label (rest ++ (k, ⟨.openFile (registry.entryPath token), .ok file⟩) :: l₂)
      (by rw [heq, List.append_assoc, List.cons_append])
  obtain ⟨i, requested, canonical, entry, node, hrecorded, rfl, hkept, hcontent, -⟩ :=
    hentries token file htoken hnames
  have hsees := hkept.sees_of_run hlast (registry.reserved_entryPath htoken) fun label hlabel =>
    not_replaced_of_does hdoes entry.token label (by simp [hlabel])
  obtain ⟨-, hwhole⟩ :=
    FileSystem.readUntilEnd_returns hreads
      (fun e he => hsees (k, e) (Histories.mem_project_iff.1 (by
        rw [hafter]
        simp [he]))) List.nil_prefix
  refine ⟨i, requested, canonical, entry, hrecorded.append _, rfl, ?_⟩
  rcases hwhole with hnone | hall
  · -- it has been read within its bound
    have hshort : MAX_ENTRY_BYTES + 1 - bytes.length = 0 := hnone
    omega
  · rw [hall, hcontent]

/-- What a resolution returns was recorded for its token. -/
theorem recorded_of_resolve {reference : String} {n : ℕ} {before events after : List Event}
    (hrun : (FileSystem.system ι registry.Reserved).Run w labels w') (hfresh : registry.Fresh w)
    (hdoes : ∀ past label rest, labels = past ++ label :: rest → Does registry lib call past label)
    (hproject : project k labels = before ++ (events ++ after))
    (h : (resolve registry lib n reference).Returns events path) :
    ∃ i requested entry, Recorded registry lib call labels i requested path entry ∧
      parseToken reference = .ok entry.token ∧
      ∃ checks, checks <:+ events ∧ Revalidated lib n path entry.identity checks := by
  obtain ⟨token, bytes, entry, e₁, e₂, hreference, rfl, hread, hdecode, hchecked⟩ :=
    resolve_returns h
  obtain ⟨hjson, -, htoken, hpath, -⟩ := decodeEntry_eq_ok_iff.1 hdecode
  rw [List.append_assoc] at hproject
  obtain ⟨i, requested, canonical, entry', hrecorded, htoken', rfl⟩ := recorded_of_readEntry hrun
    hfresh hdoes hproject (parseToken_eq_ok_iff.1 hreference).1 hread
  rw [lib.serdeJson.fromSlice_toVec] at hjson
  obtain rfl := Option.some.inj hjson
  rw [hrecorded.path, lib.b64.decode_encode] at hpath
  obtain rfl := Option.some.inj hpath
  exact ⟨i, requested, entry', hrecorded, htoken' ▸ hreference, e₂,
    List.suffix_append _ _, hchecked⟩

/-- A call that has returned a path has resolved a reference: its own, or the one that the latest
pointer held. -/
theorem Returned.resolved {fuel : ι → ℕ}
    (h : Returned registry lib fuel call labels k (.resolved path)) :
    ∃ reference before events, project k labels = before ++ events ∧
      (resolve registry lib (fuel k) reference).Returns events path ∧
      ∀ asked, call k = .resolve asked → asked = reference := by
  rw [Returned] at h
  cases hcall : call k with
  | register requested =>
      rw [hcall] at h
      obtain ⟨e₁, entry, e₂, -, hret, -⟩ := Prog.bind_returns_iff.1 h
      cases (Prog.ret_returns_iff.1 hret).2
  | load library path =>
      rw [hcall] at h
      obtain ⟨e₁, loaded, e₂, -, hret, -⟩ := Prog.bind_returns_iff.1 h
      cases (Prog.ret_returns_iff.1 hret).2
  | resolve reference =>
      rw [hcall] at h
      obtain ⟨e₁, path', e₂, hresolve, hret, hproject⟩ := Prog.bind_returns_iff.1 h
      obtain ⟨rfl, hout⟩ := Prog.ret_returns_iff.1 hret
      obtain rfl := Outcome.resolved.inj hout
      refine ⟨reference, [], e₁, by simpa using hproject, Prog.mapError_returns_iff.1 hresolve, ?_⟩
      rintro asked hasked
      exact (Call.resolve.inj hasked).symm
  | resolveLatest =>
      rw [hcall] at h
      obtain ⟨e₁, path', e₂, hlatest, hret, hproject⟩ := Prog.bind_returns_iff.1 h
      obtain ⟨rfl, hout⟩ := Prog.ret_returns_iff.1 hret
      obtain rfl := Outcome.resolved.inj hout
      obtain ⟨e₃, latest, e₄, -, hresolve, rfl⟩ :=
        resolveLatest_returns (Prog.mapError_returns_iff.1 hlatest)
      refine ⟨_, e₃, e₄, by simpa using hproject, hresolve, ?_⟩
      intro asked hasked
      cases hasked

/-- **A resolution returns the path that the one registration of its token recorded**, after it has
seen the recorded identity there. -/
theorem resolutions_recorded (registry : Registry) (lib : Libraries) (fuel : ι → ℕ)
    (call : ι → Call) (labels : List (ι × Event)) (w w' : World) (k : ι) (path : PathBuf)
    (hfresh : registry.Fresh w)
    (hrun : (FileSystem.system ι registry.Reserved).Run w labels w')
    (hobeys : Obeys registry lib fuel call labels)
    (hreturned : Returned registry lib fuel call labels k (.resolved path)) :
    ∃ i requested entry, Recorded registry lib call labels i requested path entry ∧
      (∀ reference, call k = .resolve reference → parseToken reference = .ok entry.token) ∧
      (∀ j requested' canonical' entry',
        Recorded registry lib call labels j requested' canonical' entry' →
          entry'.token = entry.token → j = i ∧ entry' = entry) ∧
      ∃ checks, checks <:+ project k labels ∧
        Revalidated lib (fuel k) path entry.identity checks := by
  have hdoes := does_of_obeys hobeys
  obtain ⟨reference, before, events, hproject, hresolve, hasked⟩ := hreturned.resolved
  obtain ⟨i, requested, entry, hrecorded, hreference, checks, hchecks, hchecked⟩ :=
    recorded_of_resolve hrun hfresh hdoes (by rw [hproject, List.append_nil]) hresolve
  refine ⟨i, requested, entry, hrecorded, ?_, ?_, checks, ?_, hchecked⟩
  · intro asked hcall
    obtain rfl := hasked asked hcall
    exact hreference
  · intro j requested' canonical' entry' hother htoken
    exact hrecorded.unique hrun hdoes hother htoken
  · rw [hproject]
    exact hchecks.trans (List.suffix_append before events)

end Resolutions

/-! ### A registration and a resolution -/

section Sample

variable {ι : Type} {lib : Libraries} {token : String} {w : World} {n : ℕ}

/-- The operations that read a stored entry in one piece. -/
def entryCalls (token : String) (bytes : Bytes) : List Event :=
  [⟨.openFile (sampleRegistry.entryPath token), .ok 1⟩,
    ⟨.metadata 1, .ok ⟨true, UInt64.ofNat bytes.length, none, 0, 1⟩⟩,
    ⟨.read 1 0 (MAX_ENTRY_BYTES + 1), .ok bytes⟩,
    ⟨.read 1 bytes.length (MAX_ENTRY_BYTES + 1 - bytes.length), .ok []⟩]

/-- The operations that check the identity of `/a`. -/
def identityCalls : List Event :=
  [⟨.openFile (Text.asBytes "/a"), .ok 0⟩, ⟨.metadata 0, .ok sampleNode.metadata⟩] ++ sampleReads

/-- The operations of a resolution of the first entry. -/
def resolutionCalls (lib : Libraries) (token : String) : List Event :=
  entryCalls token (lib.serdeJson.toVec (sampleEntry lib token)) ++ identityCalls

theorem isCanonicalPath_a : FileSystem.IsCanonicalPath (Text.asBytes "/a") :=
  ⟨by decide, by decide, by decide⟩

theorem length_sampleEntry_le (lib : Libraries) (i : Bool) :
    (lib.serdeJson.toVec (sampleEntry lib (sampleToken i))).length ≤ MAX_ENTRY_BYTES :=
  length_newEntry_le isCanonicalPath_a (isCanonicalToken_sampleToken i)

theorem entryCalls_returns {bytes : Bytes} (hne : bytes ≠ [])
    (hlength : bytes.length ≤ MAX_ENTRY_BYTES) :
    (readEntry sampleRegistry token).Returns (entryCalls token bytes) bytes := by
  have hlen : (UInt64.ofNat bytes.length).toNat ≤ MAX_ENTRY_BYTES := by
    rw [UInt64.toNat_ofNat']
    exact (Nat.mod_le _ _).trans hlength
  have hreads : (readUntilEnd 1 (fun read => MAX_ENTRY_BYTES + 1 - read) RegistryError.io
      (MAX_ENTRY_BYTES + 2) []).Returns [⟨.read 1 0 (MAX_ENTRY_BYTES + 1), .ok bytes⟩,
        ⟨.read 1 bytes.length (MAX_ENTRY_BYTES + 1 - bytes.length), .ok []⟩] bytes :=
    FileSystem.readUntilEnd_returns_of_piece hne (by simp) (by omega)
  refine Prog.call_bind_returns_iff.2 ⟨.ok 1, _, rfl, attempt_bind_returns_iff.2 ⟨1, rfl, ?_⟩⟩
  refine Prog.call_bind_returns_iff.2 ⟨_, _, rfl, attempt_bind_returns_iff.2 ⟨_, rfl, ?_⟩⟩
  refine Prog.ensure_bind_returns_iff.2 ⟨decide_eq_true hlen, ?_⟩
  refine Prog.bind_returns_iff.2 ⟨_, bytes, [], hreads, ?_, (List.append_nil _).symm⟩
  exact Prog.ensure_bind_returns_iff.2 ⟨decide_eq_true hlength, Prog.Reaches.here _⟩

theorem identityCalls_returns : (revalidate lib (n + 3) token (sampleEntry lib token)
    (Text.asBytes "/a")).Returns identityCalls (Text.asBytes "/a") := by
  refine Prog.call_bind_returns_iff.2 ⟨.ok 0, _, rfl, attempt_bind_returns_iff.2 ⟨0, rfl, ?_⟩⟩
  refine Prog.call_bind_returns_iff.2 ⟨_, _, rfl, attempt_bind_returns_iff.2 ⟨_, rfl, ?_⟩⟩
  refine Prog.ensure_bind_returns_iff.2 ⟨rfl, ?_⟩
  refine Prog.bind_returns_iff.2 ⟨_, _, [], sampleReads_returns lib n, ?_, (List.append_nil _).symm⟩
  refine Prog.ensure_bind_returns_iff.2 ⟨?_, Prog.Reaches.here _⟩
  rw [Bool.and_eq_true, beq_iff_eq]
  exact ⟨rfl, rfl⟩

theorem resolution_returns (i : Bool)
    (hne : lib.serdeJson.toVec (sampleEntry lib (sampleToken i)) ≠ []) :
    (resolve sampleRegistry lib (n + 3) (sampleEntry lib (sampleToken i)).shortRef).Returns
      (resolutionCalls lib (sampleToken i)) (Text.asBytes "/a") := by
  have htoken := isCanonicalToken_sampleToken i
  have hdecode : decodeEntry lib (sampleToken i)
      (lib.serdeJson.toVec (sampleEntry lib (sampleToken i))) =
        .ok (sampleEntry lib (sampleToken i), Text.asBytes "/a") :=
    decodeEntry_newEntry isCanonicalPath_a htoken (by decide)
  rw [resolve]
  refine Prog.ofExcept_bind_returns_iff.2 ⟨_, (parseToken_handles htoken).1, ?_⟩
  refine Prog.bind_returns_iff.2
    ⟨_, _, _, entryCalls_returns hne (length_sampleEntry_le lib i), ?_, rfl⟩
  exact Prog.ofExcept_bind_returns_iff.2 ⟨_, hdecode, identityCalls_returns⟩

/-- The operations that read the latest pointer in one piece. -/
def pointerCalls (token : String) : List Event :=
  [⟨.openFile sampleRegistry.latestPath, .ok 2⟩,
    ⟨.read 2 0 READ_LIMIT, .ok (Text.asBytes (latestText token))⟩,
    ⟨.read 2 (Text.asBytes (latestText token)).length READ_LIMIT, .ok []⟩]

theorem latest_returns (i : Bool)
    (hne : lib.serdeJson.toVec (sampleEntry lib (sampleToken i)) ≠ []) :
    (resolveLatest sampleRegistry lib (n + 3)).Returns
      (pointerCalls (sampleToken i) ++ resolutionCalls lib (sampleToken i))
        (Text.asBytes "/a") := by
  have htoken := isCanonicalToken_sampleToken i
  obtain ⟨hdecode, htrim⟩ := trim_latestText htoken
  have hpointer : Text.asBytes (latestText (sampleToken i)) ≠ [] := by
    rw [← List.length_pos_iff, length_latestText htoken]
    decide
  have hread : (readToString (n + 3) sampleRegistry.latestPath).Returns
      (pointerCalls (sampleToken i)) (latestText (sampleToken i)).toList := by
    refine Prog.call_bind_returns_iff.2 ⟨.ok 2, _, rfl, attempt_bind_returns_iff.2 ⟨2, rfl, ?_⟩⟩
    refine Prog.bind_returns_iff.2 ⟨_, _, [], FileSystem.readUntilEnd_returns_of_piece hpointer
      (by decide) (by decide), ?_, (List.append_nil _).symm⟩
    rw [hdecode]
    exact Prog.Reaches.here _
  rw [resolveLatest]
  refine Prog.bind_returns_iff.2 ⟨_, _, _, hread, ?_, rfl⟩
  rw [htrim]
  exact resolution_returns i hne

/-- The metadata of a file are told. -/
theorem performs_metadata {file : File} {node : Node} (h : w.nodes file = node) :
    Performs w ⟨.metadata file, .ok node.metadata⟩ w := by
  rw [← h]
  exact .metadata w file

/-- The first entry can be resolved. -/
theorem resolution_performs (h : Ready 1 w)
    (hlength : (lib.serdeJson.toVec (sampleEntry lib token)).length ≤ MAX_ENTRY_BYTES) :
    ∀ e ∈ resolutionCalls lib token,
      Performs (registered lib token 1 w) e (registered lib token 1 w) := by
  obtain ⟨hpath, hfile⟩ := (h.registered lib token).bound
  have hname : (registered lib token 1 w).names (sampleRegistry.entryPath token) = some 1 :=
    registered_entry
  have hnode : (registered lib token 1 w).nodes 1 =
      ⟨⟨true, UInt64.ofNat (lib.serdeJson.toVec (sampleEntry lib token)).length, none, 0, 1⟩,
        lib.serdeJson.toVec (sampleEntry lib token)⟩ := by
    simp [registered, World.publish]
  simp only [resolutionCalls, entryCalls, identityCalls, List.cons_append, List.nil_append,
    List.forall_mem_cons]
  refine ⟨.openFile hname, performs_metadata hnode, .read ?_, .read ?_, .openFile hpath,
    performs_metadata hfile, sampleReads_performs hfile⟩
  · rw [hnode]
    refine ⟨List.prefix_refl _, hlength.trans (Nat.le_succ _), fun hnil => Or.inr ?_⟩
    rw [hnil]
    exact Nat.zero_le _
  · rw [hnode]
    exact ⟨List.nil_prefix, Nat.zero_le _, fun _ => Or.inr le_rfl⟩

theorem pointer_performs (htoken : IsCanonicalToken token) :
    ∀ e ∈ pointerCalls token, Performs (registered lib token 1 w) e (registered lib token 1 w) := by
  have hcontent : ((registered lib token 1 w).nodes 2).content =
      Text.asBytes (latestText token) := by
    simp [registered, World.publish]
  simp only [pointerCalls, List.forall_mem_cons, List.not_mem_nil, false_imp_iff, implies_true,
    and_true]
  refine ⟨.openFile registered_latestFile, .read ?_, .read ?_⟩
  · rw [hcontent]
    refine ⟨List.prefix_refl _, ?_, fun hnil => Or.inr ?_⟩
    · rw [length_latestText htoken]
      decide
    · rw [hnil]
      exact Nat.zero_le _
  · rw [hcontent]
    exact ⟨List.nil_prefix, Nat.zero_le _, fun _ => Or.inr le_rfl⟩

theorem resolution_run (h : Ready 1 w) (i : ι) (calls : ι → Prop) {reserved : PathBuf → Prop}
    (hlength : (lib.serdeJson.toVec (sampleEntry lib token)).length ≤ MAX_ENTRY_BYTES) :
    (FileSystem.undisturbed reserved (Text.asBytes "/a") 0 sampleNode calls).Run
      (registered lib token 1 w) ((resolutionCalls lib token).map fun e => (i, e))
      (registered lib token 1 w) :=
  run_of_performs (fun _ hperforms => ⟨Or.inl hperforms, (h.registered lib token).bound,
    (h.registered lib token).bound⟩) (resolution_performs h hlength)

theorem toVec_compact_ne_nil (entry : ArtifactRefV1) :
    compactLibraries.serdeJson.toVec entry ≠ [] := List.cons_ne_nil _ _

/-- Enough fuel for both calls. -/
def sampleFuel : Bool → ℕ
  | false => 3
  | true => 16

/-- A registration of `/a`, and a call after it. -/
def callAfter (call : Call) : Bool → Call
  | false => .register (Text.asBytes "/a")
  | true => call

/-- The operations of a registration of `/a`, and of a call after it. -/
def labelsAfter (lib : Libraries) (events : List Event) : List (Bool × Event) :=
  ((registrationCalls lib (sampleRandom false) (sampleToken false)).map fun e => (false, e)) ++
    events.map fun e => (true, e)

theorem labelsAfter_obeys {call : Call} {events : List Event}
    (h : ∃ left, (call.prog sampleRegistry lib 16).Reaches events left) :
    Obeys sampleRegistry lib sampleFuel (callAfter call) (labelsAfter lib events) := by
  intro i
  rw [labelsAfter, Histories.project_append]
  cases i
  · rw [Histories.project_map_self, Histories.project_map_of_ne (by decide), List.append_nil]
    exact ⟨_, registerCall_returns (randomToken_sampleRandom false)⟩
  · rw [Histories.project_map_self, Histories.project_map_of_ne (by decide), List.nil_append]
    exact h

theorem resolveCalls_returns (i : Bool)
    (hne : lib.serdeJson.toVec (sampleEntry lib (sampleToken i)) ≠ []) :
    ((Call.resolve (sampleEntry lib (sampleToken i)).shortRef).prog sampleRegistry lib 16).Returns
      (resolutionCalls lib (sampleToken i)) (.resolved (Text.asBytes "/a")) :=
  Prog.bind_returns_iff.2 ⟨_, _, [], Prog.mapError_returns_iff.2 (resolution_returns i hne),
    Prog.Reaches.here _, (List.append_nil _).symm⟩

theorem labelsAfter_run {events : List Event} {calls : Bool → Prop} {w' : World}
    (h : (FileSystem.undisturbed sampleRegistry.Reserved (Text.asBytes "/a") 0 sampleNode calls).Run
      (registered lib (sampleToken false) 1 sampleWorld) (events.map fun e => (true, e)) w') :
    (FileSystem.system Bool sampleRegistry.Reserved).Run sampleWorld (labelsAfter lib events) w' :=
  (sampleLabels_first lib).append (FileSystem.system_run_of_undisturbed h)

theorem labelsAfter_returned {call : Call} {events : List Event} {outcome : Outcome}
    (h : (call.prog sampleRegistry lib 16).Returns events outcome) :
    Returned sampleRegistry lib sampleFuel (callAfter call) (labelsAfter lib events)
      true outcome := by
  rw [Returned, labelsAfter, Histories.project_append, Histories.project_map_self,
    Histories.project_map_of_ne (by decide), List.nil_append]
  exact h

/-- A registration of `/a`, and a resolution of its short reference. -/
theorem resolutions_recorded_one : ∃ i requested entry,
    Recorded sampleRegistry compactLibraries
      (callAfter (.resolve (sampleEntry compactLibraries (sampleToken false)).shortRef))
      (labelsAfter compactLibraries (resolutionCalls compactLibraries (sampleToken false)))
      i requested (Text.asBytes "/a") entry ∧
    (∀ reference,
      callAfter (.resolve (sampleEntry compactLibraries (sampleToken false)).shortRef) true =
        .resolve reference → parseToken reference = .ok entry.token) ∧
    (∀ j requested' canonical' entry',
      Recorded sampleRegistry compactLibraries
        (callAfter (.resolve (sampleEntry compactLibraries (sampleToken false)).shortRef))
        (labelsAfter compactLibraries (resolutionCalls compactLibraries (sampleToken false)))
        j requested' canonical' entry' → entry'.token = entry.token → j = i ∧ entry' = entry) ∧
    ∃ checks, checks <:+ project true
        (labelsAfter compactLibraries (resolutionCalls compactLibraries (sampleToken false))) ∧
      Revalidated compactLibraries 16 (Text.asBytes "/a") entry.identity checks :=
  resolutions_recorded sampleRegistry compactLibraries sampleFuel
    (callAfter (.resolve (sampleEntry compactLibraries (sampleToken false)).shortRef))
    _ sampleWorld _ true _ fresh_sampleWorld
    (labelsAfter_run (resolution_run ready_sampleWorld true (fun _ => False)
      (length_sampleEntry_le _ false)))
    (labelsAfter_obeys ⟨_, resolveCalls_returns false (toVec_compact_ne_nil _)⟩)
    (labelsAfter_returned (resolveCalls_returns false (toVec_compact_ne_nil _)))

end Sample

/-! ### After a registration -/

section After

variable {ι : Type} [DecidableEq ι]

/-- **A registration of a file that stays as it is**, from the start of the registration to its
return, and on while no operation of one call that comes later fails. -/
structure RegisteredBefore (registry : Registry) (lib : Libraries) (fuel : ι → ℕ) (call : ι → Call)
    (l₀ l₁ l₂ : List (ι × Event)) (u v w : World) (i k : ι) (path : PathBuf) (file : File)
    (node : Node) (entry : ArtifactRefV1) : Prop where
  obeys : Obeys registry lib fuel call (l₀ ++ (l₁ ++ l₂))
  during : (FileSystem.undisturbed registry.Reserved path file node (· = k)).Run u l₁ v
  after : (FileSystem.undisturbed registry.Reserved path file node (· = k)).Run v l₂ w
  starts : project i l₀ = []
  returned : Returned registry lib fuel call (l₀ ++ l₁) i (.registered entry)
  path : entry.pathBase64 = lib.b64.encode path
  later : project k (l₀ ++ l₁) = []

variable {registry : Registry} {lib : Libraries} {fuel : ι → ℕ} {call : ι → Call}
  {l₀ l₁ l₂ : List (ι × Event)} {u v w : World} {i k : ι} {path : PathBuf} {file : File}
  {node : Node} {entry : ArtifactRefV1}

/-- The pieces that were hashed make the file, when it stays as it is. -/
theorem hashFile_of_undisturbed {labels : List (ι × Event)} {calls : ι → Prop} {n : ℕ}
    {reads : List Event} {digest : String}
    (hrun : (FileSystem.undisturbed registry.Reserved path file node calls).Run u labels v)
    (hsubset : reads ⊆ project i labels)
    (h : (hashFile lib n file).Returns reads digest) :
    digest = lib.b64.encode (lib.sha256.digest node.content) := by
  obtain ⟨bytes, hreads, rfl⟩ := hashFile_returns h
  have hsees := FileSystem.sees_of_undisturbed hrun
  obtain ⟨-, hwhole⟩ := FileSystem.readUntilEnd_returns hreads (fun e he =>
    (hsees _ (Histories.mem_project_iff.1 (hsubset he))).imp_left And.left) List.nil_prefix
  rw [hwhole.resolve_left (by decide)]

/-- What a registration has recorded of a file that stays as it is. -/
theorem RegisteredBefore.recorded
    (h : RegisteredBefore registry lib fuel call l₀ l₁ l₂ u v w i k path file node entry) :
    IsCanonicalToken entry.token ∧ FileSystem.IsCanonicalPath path ∧ node.metadata.isFile = true ∧
      node.metadata.len.toNat ≤ MAX_ARTIFACT_INPUT_BYTES_V1 ∧
      (∃ ms, entry = newEntry lib path (fileIdentity node.metadata
        (lib.b64.encode (lib.sha256.digest node.content))) ms entry.token) ∧
      publishCalls registry lib entry <:+ project i l₁ := by
  obtain ⟨requested, canonical, metadata, digest, -, hregistered⟩ := h.returned.registered
  rw [Histories.project_append, h.starts, List.nil_append] at hregistered
  obtain ⟨before, source, reads, after, hevents, hdigest⟩ := hregistered.captured
  obtain ⟨ms, hentry⟩ := hregistered.recorded
  -- it registered the path itself
  have hpath : canonical = path := by
    have hencoded := h.path
    rw [hentry] at hencoded
    exact lib.b64.encode_injective hencoded
  subst hpath
  have hsees : ∀ e ∈ project i l₁, FileSystem.Failed e ∨ FileSystem.Sees canonical file node e :=
    fun e he => (FileSystem.sees_of_undisturbed h.during _
      (Histories.mem_project_iff.1 he)).imp_left And.left
  have hsource : source = file := by
    rcases hsees ⟨.openFile canonical, .ok source⟩ (by simp [hevents]) with hfailed | hsee
    · cases hfailed
    · exact Except.ok.inj (hsee rfl)
  subst hsource
  have hmetadata : metadata = node.metadata := by
    rcases hsees ⟨.metadata source, .ok metadata⟩ (by simp [hevents]) with hfailed | hsee
    · cases hfailed
    · exact Except.ok.inj (hsee rfl)
  subst hmetadata
  have hsubset : reads ⊆ project i l₁ := by
    rw [hevents]
    intro e he
    simp [he]
  obtain rfl := hashFile_of_undisturbed h.during hsubset hdigest
  refine ⟨hregistered.token, ?_, hregistered.isFile, hregistered.limit, ⟨ms, hentry⟩,
    hregistered.published⟩
  have hmem : (i, ⟨.canonicalize requested, .ok canonical⟩) ∈ l₁ := Histories.mem_project_iff.1 (by
    simp [hevents])
  exact FileSystem.canonical_of_run (FileSystem.system_run_of_undisturbed h.during) _ hmem _ _ rfl

/-- The entry of a registration that has returned is bound. -/
theorem RegisteredBefore.kept
    (h : RegisteredBefore registry lib fuel call l₀ l₁ l₂ u v w i k path file node entry) :
    ∃ entryFile entryNode, Kept (registry.entryPath entry.token) entryFile entryNode v ∧
      entryNode.content = lib.serdeJson.toVec entry ∧
      entryNode.metadata.len = UInt64.ofNat (lib.serdeJson.toVec entry).length := by
  obtain ⟨htoken, -, -, -, -, hpublished⟩ := h.recorded
  have hcreated : (i, ⟨.persistNoclobber (lib.serdeJson.toVec entry)
      (registry.entryPath entry.token), .ok ()⟩) ∈ l₁ :=
    Histories.mem_project_iff.1 (hpublished.subset List.mem_cons_self)
  obtain ⟨m₁, m₂, hlabels⟩ := List.append_of_mem hcreated
  have hduring := FileSystem.system_run_of_undisturbed h.during
  rw [hlabels] at hduring
  obtain ⟨s, -, hrest⟩ := Lts.run_append_iff.1 hduring
  obtain ⟨t, t', -, hstep, hlast⟩ := Lts.run_cons_iff.1 hrest
  obtain ⟨entryFile, entryNode, hkept, hcontent, hlen⟩ := FileSystem.kept_of_created hstep
  refine ⟨entryFile, entryNode, ?_, hcontent, hlen⟩
  refine hkept.of_run hlast (registry.reserved_entryPath htoken) fun label hlabel => ?_
  exact not_replaced_of_does (does_of_obeys h.obeys) entry.token label (by simp [hlabels, hlabel])

/-- **A later resolution of the reference** goes on until it returns the path. -/
theorem RegisteredBefore.ensures {reference : String}
    (h : RegisteredBefore registry lib fuel call l₀ l₁ l₂ u v w i k path file node entry)
    (hreference : parseToken reference = .ok entry.token) (hfuel : node.content.length < fuel k) :
    Prog.Ensures (fun e => (k, e) ∈ l₂) (fun p => p = path)
      (resolve registry lib (fuel k) reference) := by
  obtain ⟨htoken, hcanonical, hfile, hlimit, ⟨ms, hentry⟩, -⟩ := h.recorded
  obtain ⟨entryFile, entryNode, hkept, hcontent, hlen⟩ := h.kept
  have hbound : (lib.serdeJson.toVec entry).length ≤ MAX_ENTRY_BYTES := by
    rw [hentry]
    exact length_newEntry_le hcanonical htoken
  have hlength : entryNode.metadata.len.toNat ≤ MAX_ENTRY_BYTES := by
    rw [hlen, UInt64.toNat_ofNat']
    exact (Nat.mod_le _ _).trans hbound
  have hdecode : decodeEntry lib entry.token entryNode.content = .ok (entry, path) := by
    rw [hcontent, hentry]
    exact decodeEntry_newEntry hcanonical htoken hlimit
  have hseen : ∀ e, (k, e) ∈ l₂ →
      FileSystem.Sees (registry.entryPath entry.token) entryFile entryNode e := fun e he =>
    hkept.sees_of_undisturbed h.after (registry.reserved_entryPath htoken)
      (fun label hlabel => not_replaced_of_does (does_of_obeys h.obeys) entry.token label
        (by simp [hlabel])) (k, e) he rfl
  have hpath : ∀ e, (k, e) ∈ l₂ → FileSystem.Sees path file node e := by
    intro e he
    rcases FileSystem.sees_of_undisturbed h.after (k, e) he with ⟨-, hnot⟩ | hsee
    · exact absurd rfl hnot
    · exact hsee
  refine resolve_ensures hreference hseen hlength (hcontent ▸ hbound) hdecode hpath hlimit hfile ?_
    hfuel
  rw [hentry]
  rfl

/-- The latest pointer of a registration that has returned is bound, as long as nobody replaces
it. -/
theorem RegisteredBefore.kept_latest {m₁ m₂ : List (ι × Event)} {bytes : Bytes}
    (h : RegisteredBefore registry lib fuel call l₀ l₁ l₂ u v w i k path file node entry)
    (hlabels : l₁ = m₁ ++ (i, ⟨.persist bytes registry.latestPath, .ok ()⟩) :: m₂)
    (hsince : ∀ label ∈ m₂ ++ l₂, ∀ bytes',
      label.2 ≠ ⟨.persist bytes' registry.latestPath, .ok ()⟩) :
    ∃ latestFile latestNode, Kept registry.latestPath latestFile latestNode v ∧
      latestNode.content = Text.asBytes (latestText entry.token) := by
  obtain ⟨-, -, -, -, -, earlier, hpublished⟩ := h.recorded
  have hproject : project i l₁ = project i m₁ ++
      ⟨.persist bytes registry.latestPath, .ok ()⟩ :: project i m₂ := by
    rw [hlabels]
    simp [project]
  -- it is the last operation of the registration
  have hbytes : bytes = Text.asBytes (latestText entry.token) := by
    have hlast := congrArg List.getLast? (hpublished.trans hproject)
    rw [List.getLast?_append_of_ne_nil _ (by simp [publishCalls]),
      List.getLast?_append_of_ne_nil _ (by simp)] at hlast
    rcases List.eq_nil_or_concat (project i m₂) with hnil | ⟨others, last, hothers⟩
    · rw [hnil] at hlast
      have hevent := congrArg Sigma.fst (Option.some.inj hlast)
      exact (FileSystem.FsOp.persist.inj hevent).1.symm
    · rw [hothers, List.concat_eq_append, ← List.cons_append,
        List.getLast?_append_of_ne_nil _ (by simp)] at hlast
      obtain rfl := Option.some.inj hlast
      have hmem :
          (i, ⟨.persist (Text.asBytes (latestText entry.token)) registry.latestPath, .ok ()⟩) ∈
            m₂ :=
        Histories.mem_project_iff.1 (by simp [hothers])
      exact absurd rfl (hsince _ (List.mem_append_left _ hmem) _)
  subst hbytes
  have hduring := FileSystem.system_run_of_undisturbed h.during
  rw [hlabels] at hduring
  obtain ⟨s, -, hrest⟩ := Lts.run_append_iff.1 hduring
  obtain ⟨t, t', -, hstep, hlast⟩ := Lts.run_cons_iff.1 hrest
  obtain ⟨latestFile, latestNode, hkept, hcontent⟩ := FileSystem.kept_of_replaced hstep
  refine ⟨latestFile, latestNode, ?_, hcontent⟩
  exact hkept.of_run hlast registry.reserved_latestPath fun label hlabel =>
    hsince label (List.mem_append_left _ hlabel)

/-- What a later call has left: as long as it has to return one value, it waits or has returned
it. -/
theorem RegisteredBefore.waiting_or_returned {outcome : Outcome}
    (h : RegisteredBefore registry lib fuel call l₀ l₁ l₂ u v w i k path file node entry)
    (hensures : Prog.Ensures (fun e => (k, e) ∈ l₂) (fun o => o = outcome)
      ((call k).prog registry lib (fuel k))) :
    ∃ left, ((call k).prog registry lib (fuel k)).Reaches (project k l₂) left ∧
      ((∃ op next, left = .perform op next) ∨ left = .ret outcome) := by
  obtain ⟨left, hleft⟩ := h.obeys k
  rw [← List.append_assoc, Histories.project_append, h.later, List.nil_append] at hleft
  refine ⟨left, hleft, ?_⟩
  rcases hensures.waiting_or_returned hleft (fun e he => Histories.mem_project_iff.1 he) with
    hwaits | ⟨o, rfl, rfl⟩
  · exact Or.inl hwaits
  · exact Or.inr rfl

/-- **After a registration of a file that stays as it is**, each of its references is resolved: as
long as no file-system operation of the resolution itself fails, it waits for one, or has returned
the path. -/
theorem registered_resolves (registry : Registry) (lib : Libraries) (fuel : ι → ℕ) (call : ι → Call)
    (l₀ l₁ l₂ : List (ι × Event)) (u v w : World) (i k : ι) (path : PathBuf) (file : File)
    (node : Node) (entry : ArtifactRefV1) (reference : String)
    (h : RegisteredBefore registry lib fuel call l₀ l₁ l₂ u v w i k path file node entry)
    (hreference : reference = entry.shortRef ∨ reference = entry.uri ∨ reference = entry.token)
    (hcall : call k = .resolve reference) (hfuel : node.content.length < fuel k) :
    ∃ left, ((call k).prog registry lib (fuel k)).Reaches (project k l₂) left ∧
      ((∃ op next, left = .perform op next) ∨ left = .ret (.resolved path)) := by
  obtain ⟨htoken, -⟩ := h.recorded
  obtain ⟨hshort, huri, hbare⟩ := parseToken_handles htoken
  have hparse : parseToken reference = .ok entry.token := by
    rcases hreference with rfl | rfl | rfl
    · exact hshort
    · exact huri
    · exact hbare
  refine h.waiting_or_returned ?_
  rw [hcall]
  refine (h.ensures hparse hfuel).mapError.bind ?_
  rintro _ rfl
  rfl

/-- A call after a registration of `/a`. -/
theorem registeredBefore_sample {lib : Libraries} {call : Call} {events : List Event} {w' : World}
    (hreaches : ∃ left, (call.prog sampleRegistry lib 16).Reaches events left)
    (hrun : (FileSystem.undisturbed sampleRegistry.Reserved (Text.asBytes "/a") 0 sampleNode
      (· = true)).Run (registered lib (sampleToken false) 1 sampleWorld)
        (events.map fun e => (true, e)) w') :
    RegisteredBefore sampleRegistry lib sampleFuel (callAfter call) []
      ((registrationCalls lib (sampleRandom false) (sampleToken false)).map fun e => (false, e))
      (events.map fun e => (true, e)) sampleWorld
        (registered lib (sampleToken false) 1 sampleWorld) w'
      false true (Text.asBytes "/a") 0 sampleNode (sampleEntry lib (sampleToken false)) where
  obeys := labelsAfter_obeys hreaches
  during := registration_run ready_sampleWorld false _ rfl
    (fresh_sampleWorld.free _ (sampleRegistry.reserved_entryPath (isCanonicalToken_sampleToken _)))
  after := hrun
  starts := rfl
  returned := by
    rw [Returned, List.nil_append, Histories.project_map_self]
    exact registerCall_returns (randomToken_sampleRandom false)
  path := rfl
  later := Histories.project_map_of_ne (by decide) _

/-- A resolution of the short reference of `/a`. -/
theorem registered_resolves_one : ∃ left,
    ((callAfter (.resolve (sampleEntry compactLibraries (sampleToken false)).shortRef) true).prog
      sampleRegistry compactLibraries (sampleFuel true)).Reaches
        (project true
          ((resolutionCalls compactLibraries (sampleToken false)).map fun e => (true, e)))
        left ∧
      ((∃ op next, left = .perform op next) ∨ left = .ret (.resolved (Text.asBytes "/a"))) :=
  registered_resolves sampleRegistry compactLibraries sampleFuel
    (callAfter (.resolve (sampleEntry compactLibraries (sampleToken false)).shortRef)) [] _ _
    sampleWorld _ _ false true (Text.asBytes "/a") 0 sampleNode _ _
    (registeredBefore_sample ⟨_, resolveCalls_returns false (toVec_compact_ne_nil _)⟩
      (resolution_run ready_sampleWorld true _ (length_sampleEntry_le _ false)))
    (Or.inl rfl) rfl (by decide)

/-- **The latest artifact is the last that was registered**, when nobody has replaced the pointer
since, and as long as no file-system operation of the resolution itself fails. -/
theorem registered_latest (registry : Registry) (lib : Libraries) (fuel : ι → ℕ) (call : ι → Call)
    (l₀ l₁ l₂ : List (ι × Event)) (u v w : World) (i k : ι) (path : PathBuf) (file : File)
    (node : Node) (entry : ArtifactRefV1) (m₁ m₂ : List (ι × Event)) (bytes : Bytes)
    (h : RegisteredBefore registry lib fuel call l₀ l₁ l₂ u v w i k path file node entry)
    (hlabels : l₁ = m₁ ++ (i, ⟨.persist bytes registry.latestPath, .ok ()⟩) :: m₂)
    (hsince : ∀ label ∈ m₂ ++ l₂, ∀ bytes', label.2 ≠ ⟨.persist bytes' registry.latestPath, .ok ()⟩)
    (hcall : call k = .resolveLatest) (hfuel : max 15 node.content.length < fuel k) :
    ∃ left, ((call k).prog registry lib (fuel k)).Reaches (project k l₂) left ∧
      ((∃ op next, left = .perform op next) ∨ left = .ret (.resolved path)) := by
  obtain ⟨htoken, -⟩ := h.recorded
  obtain ⟨latestFile, latestNode, hkept, hcontent⟩ := h.kept_latest hlabels hsince
  have hseen : ∀ e, (k, e) ∈ l₂ → FileSystem.Sees registry.latestPath latestFile latestNode e :=
    fun e he => hkept.sees_of_undisturbed h.after registry.reserved_latestPath
      (fun label hlabel => hsince label (List.mem_append_right _ hlabel)) (k, e) he rfl
  have hlength : latestNode.content.length < fuel k := by
    rw [hcontent, length_latestText htoken]
    exact (le_max_left _ _).trans_lt hfuel
  have hresolve := h.ensures (parseToken_handles htoken).1 ((le_max_right _ _).trans_lt hfuel)
  refine h.waiting_or_returned ?_
  rw [hcall]
  refine (resolveLatest_ensures hseen htoken hcontent hlength hresolve).mapError.bind ?_
  rintro _ rfl
  rfl

/-- The pointer is read after a registration of `/a`, and its artifact is resolved. -/
theorem registered_latest_one : ∃ left,
    ((callAfter .resolveLatest true).prog sampleRegistry compactLibraries (sampleFuel true)).Reaches
        (project true ((pointerCalls (sampleToken false) ++
          resolutionCalls compactLibraries (sampleToken false)).map fun e => (true, e))) left ∧
      ((∃ op next, left = .perform op next) ∨ left = .ret (.resolved (Text.asBytes "/a"))) := by
  have hready := ready_sampleWorld.registered compactLibraries (sampleToken false)
  have hreturns : ∃ left, (Call.resolveLatest.prog sampleRegistry compactLibraries 16).Reaches
      (pointerCalls (sampleToken false) ++ resolutionCalls compactLibraries (sampleToken false))
      left :=
    ⟨_, Prog.bind_returns_iff.2 ⟨_, _, [], Prog.mapError_returns_iff.2
      (latest_returns false (toVec_compact_ne_nil _)), Prog.Reaches.here _,
        (List.append_nil _).symm⟩⟩
  -- the last operation of the registration replaces the pointer, and no later one does
  have hlast : registrationCalls compactLibraries (sampleRandom false) (sampleToken false) =
      (registrationCalls compactLibraries (sampleRandom false) (sampleToken false)).dropLast ++
        [⟨.persist (Text.asBytes (latestText (sampleToken false)))
          sampleRegistry.latestPath, .ok ()⟩] :=
    rfl
  have hlabels := congrArg (List.map fun e => (false, e)) hlast
  rw [List.map_append] at hlabels
  refine registered_latest sampleRegistry compactLibraries sampleFuel
    (callAfter .resolveLatest) [] _ _ sampleWorld _ _ false true (Text.asBytes "/a") 0
    sampleNode _ _ [] _
    (registeredBefore_sample hreturns (run_of_performs
      (fun _ hperforms => ⟨Or.inl hperforms, hready.bound, hready.bound⟩)
      (List.forall_mem_append.2 ⟨pointer_performs (isCanonicalToken_sampleToken false),
        resolution_performs ready_sampleWorld (length_sampleEntry_le _ false)⟩)))
    hlabels ?_ rfl (by decide)
  simp [pointerCalls, resolutionCalls, entryCalls, identityCalls, sampleReads]

end After

end Registry

end TermInterop
