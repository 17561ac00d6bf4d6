/-
Paths, and a file system shared by calls and by everybody else.

On Unix a path is any byte string: it is never decoded, and two paths are told apart by their bytes.
The portable profiles also know Windows paths, which are UTF-8 text of a recognizable shape;
`isWindowsAbsolute` is the recognizer that both the reference crate and the intent crate carry.

A path names a file, and a file has metadata and bytes; two paths may name one file, and a path may
come to name another file.  Calls act on the file system by the operations `FsOp`.  Outside of all
calls it may change in any way, except that some paths are *reserved*: only calls bind them, and the
files that calls create are *owned*, so that nobody else writes to them.

A temporary file is private until it is given its name, so writing one is a single operation, and
the operations that give it a name create the named file with these bytes.  `persistNoclobber` does
so exactly when the name is free.  A read may return fewer bytes than it could, but no bytes only at
the end of the file.  Every operation may also fail without effect.

Main definitions:

* `TermInterop.PathBuf`, `TermInterop.isAbsolute`, `TermInterop.join` — Unix paths;
* `TermInterop.isWindowsAbsolute` — the shape of an absolute Windows path;
* `FileSystem.World`, `FileSystem.FsOp` — the state and the operations;
* `FileSystem.Performs`, `FileSystem.Failed`, `FileSystem.Outside` — what can happen;
* `FileSystem.system`, `FileSystem.undisturbed` — the file system, and the file system while one
  file keeps its name and its bytes;
* `FileSystem.Kept`, `FileSystem.Sees` — a name that stays bound, and what is seen through it;
* `FileSystem.readUntilEnd` — reading a file in pieces.

Main results:

* `TermInterop.join_injective` — different names in a directory are different paths;
* `FileSystem.Kept.of_step` — **a reserved name stays bound to the same bytes**;
* `FileSystem.sees_of_step` — what an operation sees of a bound name;
* `FileSystem.created_once` — **a reserved name is created once**;
* `FileSystem.readUntilEnd_returns`, `FileSystem.readUntilEnd_ensures` — **pieces of a file that
  does not change make the file**.
-/

import TermInterop.Histories
import TermInterop.Lts
import TermInterop.Receipt

set_option relaxedAutoImplicit false
set_option autoImplicit false

/-! ### Paths -/

namespace TermInterop

/-- The bytes of a Unix path. -/
abbrev PathBuf := Bytes

/-- The separator of Unix paths. -/
def slash : UInt8 := 0x2F

/-- A Unix path is absolute when it starts at the root. -/
def isAbsolute (path : PathBuf) : Bool := path.head? == some slash

/-- `Path::join`: an absolute component replaces the path, and no separator is doubled. -/
def join (path component : PathBuf) : PathBuf :=
  if isAbsolute component ∨ path = [] then component
  else if path.getLast? = some slash then path ++ component
  else path ++ slash :: component

/-- What a relative component is appended to. -/
def directory (path : PathBuf) : PathBuf :=
  if path = [] then [] else if path.getLast? = some slash then path else path ++ [slash]

theorem join_eq {path component : PathBuf} (h : isAbsolute component = false) :
    join path component = directory path ++ component := by
  simp only [join, directory, h, Bool.false_eq_true, false_or]
  split_ifs <;> simp

/-- A path ends as its last component does. -/
theorem getLast?_join {path component : PathBuf} (h : component ≠ []) :
    (join path component).getLast? = component.getLast? := by
  rw [join]
  split_ifs
  · rfl
  · exact List.getLast?_append_of_ne_nil path h
  · rw [List.getLast?_append_of_ne_nil path (List.cons_ne_nil slash component), List.getLast?_cons]
    obtain ⟨b, hb⟩ := Option.ne_none_iff_exists'.1 (mt List.getLast?_eq_none_iff.1 h)
    rw [hb]
    rfl

/-- Different relative components of one path are different paths. -/
theorem join_injective {path a b : PathBuf} (ha : isAbsolute a = false) (hb : isAbsolute b = false)
    (h : join path a = join path b) : a = b := by
  rw [join_eq ha, join_eq hb] at h
  exact List.append_cancel_left h

/-- `Path::file_name`: the last component, unless it leads upwards. -/
def fileName (path : PathBuf) : Option Bytes :=
  let components := (path.splitOn slash).filter fun component =>
    component ≠ [] ∧ component ≠ [0x2E]
  components.getLast?.filter fun component => component ≠ [0x2E, 0x2E]

/-- The kinds of I/O failure that the program tells apart, and any other. -/
inductive IoErrorKind
  | notFound
  | alreadyExists
  | invalidData
  | other (code : ℕ)
  deriving DecidableEq

/-- A separator of Windows paths. -/
def isWindowsSeparator (byte : UInt8) : Bool := byte == 0x2F || byte == 0x5C

/-- An ASCII letter. -/
def isAsciiAlphabetic (byte : UInt8) : Bool :=
  (0x41 ≤ byte && byte ≤ 0x5A) || (0x61 ≤ byte && byte ≤ 0x7A)

/-- A drive letter with a colon and a separator, or two separators. -/
def isWindowsAbsolute (value : Bytes) : Bool :=
  (match value with
    | drive :: colon :: separator :: _ =>
        isAsciiAlphabetic drive && colon == 0x3A && isWindowsSeparator separator
    | _ => false) ||
  (match value with
    | first :: second :: _ => isWindowsSeparator first && isWindowsSeparator second
    | _ => false)

end TermInterop

namespace FileSystem

open TermInterop (Bytes PathBuf IoErrorKind isAbsolute)

/-! ### Files and names -/

/-- A file, whatever its names. -/
abbrev File := ℕ

/-- The longest canonical path. -/
def PATH_MAX : ℕ := 4096

/-- What the file system says about a file; the modification time counts nanoseconds from the Unix
epoch. -/
structure Metadata where
  isFile : Bool
  len : UInt64
  modified : Option ℤ
  dev : UInt64
  ino : UInt64
  deriving DecidableEq

/-- A file with its bytes. -/
structure Node where
  metadata : Metadata
  content : Bytes
  deriving DecidableEq

/-- A canonical path: absolute, without NUL, and of bounded length. -/
def IsCanonicalPath (path : PathBuf) : Prop :=
  isAbsolute path = true ∧ 0 ∉ path ∧ path.length ≤ PATH_MAX

/-- The state of the file system. -/
structure World where
  /-- The file that a path names. -/
  names : PathBuf → Option File
  /-- The canonical form of a path that names a file. -/
  canonical : PathBuf → Option PathBuf
  nodes : File → Node
  /-- The files that calls have created. -/
  owned : File → Prop
  canonical_valid : ∀ path p, canonical path = some p → IsCanonicalPath p

/-! ### Operations -/

/-- The operations of a call. -/
inductive FsOp
  | createDirAll (path : PathBuf)
  | setPermissions (path : PathBuf) (mode : ℕ)
  | canonicalize (path : PathBuf)
  | openFile (path : PathBuf)
  | metadata (file : File)
  | read (file : File) (offset limit : ℕ)
  /-- The milliseconds since the Unix epoch, or nothing before it. -/
  | now
  | random (count : ℕ)
  | writeTemporary (directory : PathBuf) (bytes : Bytes)
  | persistNoclobber (bytes : Bytes) (path : PathBuf)
  | persist (bytes : Bytes) (path : PathBuf)
  deriving DecidableEq

/-- What an operation answers. -/
@[reducible] def FsOp.Answer : FsOp → Type
  | createDirAll _ => Except IoErrorKind Unit
  | setPermissions _ _ => Except IoErrorKind Unit
  | canonicalize _ => Except IoErrorKind PathBuf
  | openFile _ => Except IoErrorKind File
  | metadata _ => Except IoErrorKind Metadata
  | read _ _ _ => Except IoErrorKind Bytes
  | now => Option ℕ
  | random _ => Option Bytes
  | writeTemporary _ _ => Except IoErrorKind Unit
  | persistNoclobber _ _ => Except IoErrorKind Unit
  | persist _ _ => Except IoErrorKind Unit

/-- An operation with its answer. -/
abbrev Event := Prog.Event FsOp.Answer

/-- Programs over these operations. -/
abbrev Fs (ε α : Type) := Prog FsOp FsOp.Answer ε α

/-- What a read may return: a piece of the file from the offset on, and nothing only at its end. -/
structure ReadOf (content : Bytes) (offset limit : ℕ) (chunk : Bytes) : Prop where
  starts : chunk <+: content.drop offset
  length_le : chunk.length ≤ limit
  nonempty : chunk = [] → limit = 0 ∨ content.length ≤ offset

/-- A new file with some bytes takes a name. -/
structure Creates (w : World) (path : PathBuf) (bytes : Bytes) (w' : World) : Prop where
  created : ∃ file, ¬ w.owned file ∧ w'.names path = some file ∧
    (w'.nodes file).content = bytes ∧ (w'.nodes file).metadata.isFile = true ∧
    (w'.nodes file).metadata.len = UInt64.ofNat bytes.length ∧
    (∀ other, other ≠ file → w'.nodes other = w.nodes other) ∧
    ∀ other, w'.owned other ↔ other = file ∨ w.owned other
  names : ∀ other, other ≠ path → w'.names other = w.names other
  canonical : ∀ other, other ≠ path → w'.canonical other = w.canonical other

/-- **What an operation does and answers** when it does not fail. -/
inductive Performs : World → Event → World → Prop
  | createDirAll (w : World) (path : PathBuf) : Performs w ⟨.createDirAll path, .ok ()⟩ w
  | setPermissions (w : World) (path : PathBuf) (mode : ℕ) :
      Performs w ⟨.setPermissions path mode, .ok ()⟩ w
  | canonicalize {w : World} {path p : PathBuf} :
      w.canonical path = some p → Performs w ⟨.canonicalize path, .ok p⟩ w
  | canonicalizeMissing {w : World} {path : PathBuf} :
      w.canonical path = none → Performs w ⟨.canonicalize path, .error .notFound⟩ w
  | openFile {w : World} {path : PathBuf} {file : File} :
      w.names path = some file → Performs w ⟨.openFile path, .ok file⟩ w
  | openMissing {w : World} {path : PathBuf} :
      w.names path = none → Performs w ⟨.openFile path, .error .notFound⟩ w
  | metadata (w : World) (file : File) :
      Performs w ⟨.metadata file, .ok (w.nodes file).metadata⟩ w
  | read {w : World} {file : File} {offset limit : ℕ} {chunk : Bytes} :
      ReadOf (w.nodes file).content offset limit chunk →
        Performs w ⟨.read file offset limit, .ok chunk⟩ w
  | now (w : World) (ms : ℕ) : Performs w ⟨.now, some ms⟩ w
  | random {w : World} {count : ℕ} {bytes : Bytes} :
      bytes.length = count → Performs w ⟨.random count, some bytes⟩ w
  | writeTemporary (w : World) (directory : PathBuf) (bytes : Bytes) :
      Performs w ⟨.writeTemporary directory bytes, .ok ()⟩ w
  | persistNoclobber {w w' : World} {bytes : Bytes} {path : PathBuf} :
      w.names path = none → Creates w path bytes w' →
        Performs w ⟨.persistNoclobber bytes path, .ok ()⟩ w'
  | persistExisting {w : World} {bytes : Bytes} {path : PathBuf} {file : File} :
      w.names path = some file →
        Performs w ⟨.persistNoclobber bytes path, .error .alreadyExists⟩ w
  | persist {w w' : World} {bytes : Bytes} {path : PathBuf} :
      Creates w path bytes w' → Performs w ⟨.persist bytes path, .ok ()⟩ w'

/-- The answers of operations that failed, for whatever reason. -/
inductive Failed : Event → Prop
  | createDirAll (path : PathBuf) (kind : IoErrorKind) : Failed ⟨.createDirAll path, .error kind⟩
  | setPermissions (path : PathBuf) (mode : ℕ) (kind : IoErrorKind) :
      Failed ⟨.setPermissions path mode, .error kind⟩
  | canonicalize (path : PathBuf) (kind : IoErrorKind) : Failed ⟨.canonicalize path, .error kind⟩
  | openFile (path : PathBuf) (kind : IoErrorKind) : Failed ⟨.openFile path, .error kind⟩
  | metadata (file : File) (kind : IoErrorKind) : Failed ⟨.metadata file, .error kind⟩
  | read (file : File) (offset limit : ℕ) (kind : IoErrorKind) :
      Failed ⟨.read file offset limit, .error kind⟩
  | now : Failed ⟨.now, none⟩
  | random (count : ℕ) : Failed ⟨.random count, none⟩
  | writeTemporary (directory : PathBuf) (bytes : Bytes) (kind : IoErrorKind) :
      Failed ⟨.writeTemporary directory bytes, .error kind⟩
  /-- A name that is free is never reported as taken. -/
  | persistNoclobber (bytes : Bytes) (path : PathBuf) (kind : IoErrorKind) :
      kind ≠ .alreadyExists → Failed ⟨.persistNoclobber bytes path, .error kind⟩
  | persist (bytes : Bytes) (path : PathBuf) (kind : IoErrorKind) :
      Failed ⟨.persist bytes path, .error kind⟩

/-- What may happen outside of all calls: anything but a change of a reserved name or of an owned
file. -/
structure Outside (reserved : PathBuf → Prop) (w w' : World) : Prop where
  names : ∀ path, reserved path → w'.names path = w.names path
  owned : ∀ file, w'.owned file ↔ w.owned file
  nodes : ∀ file, w.owned file → w'.nodes file = w.nodes file

variable {ι : Type}

/-- **The file system**: an operation is performed or fails, and anything may happen outside. -/
def system (ι : Type) (reserved : PathBuf → Prop) : Lts World (ι × Event) where
  silent := Outside reserved
  step w label w' := Performs w label.2 w' ∨ (Failed label.2 ∧ w' = w)

/-- A path names a file with some metadata and bytes. -/
def Names (path : PathBuf) (file : File) (node : Node) (w : World) : Prop :=
  w.names path = some file ∧ w.nodes file = node

/-- **The file system while one file keeps its name and its bytes**, and while no operation of the
given calls fails. -/
def undisturbed (reserved : PathBuf → Prop) (path : PathBuf) (file : File) (node : Node)
    (calls : ι → Prop) : Lts World (ι × Event) where
  silent w w' := Outside reserved w w' ∧ Names path file node w ∧ Names path file node w'
  step w label w' :=
    (Performs w label.2 w' ∨ (Failed label.2 ∧ w' = w ∧ ¬ calls label.1)) ∧
      Names path file node w ∧ Names path file node w'

/-! ### Names that stay bound -/

/-- A name is bound to an owned file. -/
structure Kept (path : PathBuf) (file : File) (node : Node) (w : World) : Prop where
  names : w.names path = some file
  owned : w.owned file
  nodes : w.nodes file = node

section Kept

variable {reserved : PathBuf → Prop} {path : PathBuf} {file : File} {node : Node} {w w' : World}
  {label : ι × Event}

theorem Kept.of_outside (hreserved : reserved path) (h : Outside reserved w w')
    (hkept : Kept path file node w) : Kept path file node w' where
  names := (h.names path hreserved).trans hkept.names
  owned := (h.owned file).2 hkept.owned
  nodes := (h.nodes file hkept.owned).trans hkept.nodes

/-- A created file is another file, under another name. -/
theorem Kept.of_creates {other : PathBuf} {bytes : Bytes} (hne : path ≠ other)
    (h : Creates w other bytes w') (hkept : Kept path file node w) : Kept path file node w' := by
  obtain ⟨created, hfresh, -, -, -, -, hnodes, howned⟩ := h.created
  have hfile : file ≠ created := by
    rintro rfl
    exact hfresh hkept.owned
  exact ⟨(h.names path hne).trans hkept.names, (howned file).2 (Or.inr hkept.owned),
    (hnodes file hfile).trans hkept.nodes⟩

/-- **A reserved name stays bound to the same bytes** unless an operation replaces it. -/
theorem Kept.of_step (h : (system ι reserved).step w label w')
    (hreplace : ∀ bytes, label.2 ≠ ⟨.persist bytes path, .ok ()⟩)
    (hkept : Kept path file node w) : Kept path file node w' := by
  rcases h with hperforms | ⟨-, rfl⟩
  · obtain ⟨i, e⟩ := label
    cases hperforms with
    | persistNoclobber hfree hcreates =>
        -- only a free name is taken
        refine hkept.of_creates ?_ hcreates
        rintro rfl
        rw [hkept.names] at hfree
        cases hfree
    | persist hcreates =>
        refine hkept.of_creates ?_ hcreates
        rintro rfl
        exact hreplace _ rfl
    | _ => exact hkept
  · exact hkept

/-- A created file is kept. -/
theorem kept_of_creates {bytes : Bytes} (h : Creates w path bytes w') :
    ∃ file node, Kept path file node w' ∧ node.content = bytes ∧ node.metadata.isFile = true ∧
      node.metadata.len = UInt64.ofNat bytes.length := by
  obtain ⟨file, -, hnames, hcontent, hisFile, hlen, -, howned⟩ := h.created
  exact ⟨file, w'.nodes file, ⟨hnames, (howned file).2 (Or.inl rfl), rfl⟩, hcontent, hisFile, hlen⟩

end Kept

/-! ### What is seen through a name -/

/-- What an operation that does not fail sees of a name and of the file that it names. -/
def Sees (path : PathBuf) (file : File) (node : Node) : Event → Prop
  | ⟨.openFile p, ans⟩ => p = path → ans = .ok file
  | ⟨.metadata f, ans⟩ => f = file → ans = .ok node.metadata
  | ⟨.read f offset limit, ans⟩ =>
      f = file → ∃ chunk, ans = .ok chunk ∧ ReadOf node.content offset limit chunk
  | _ => True

theorem sees_of_performs {path : PathBuf} {file : File} {node : Node} {w w' : World} {e : Event}
    (h : Performs w e w') (hnames : Names path file node w) : Sees path file node e := by
  obtain ⟨hname, hnode⟩ := hnames
  cases h with
  | openFile hopen =>
      rintro rfl
      rw [hname] at hopen
      rw [Option.some_inj.1 hopen]
  | openMissing hopen =>
      rintro rfl
      rw [hname] at hopen
      cases hopen
  | metadata f =>
      rintro rfl
      rw [← hnode]
  | read hread =>
      rintro rfl
      rw [hnode] at hread
      exact ⟨_, rfl, hread⟩
  | _ => trivial

/-- **What an operation sees of a bound name**, unless it fails. -/
theorem sees_of_step {reserved : PathBuf → Prop} {path : PathBuf} {file : File} {node : Node}
    {w w' : World} {label : ι × Event} (h : (system ι reserved).step w label w')
    (hnames : Names path file node w) : Failed label.2 ∨ Sees path file node label.2 := by
  rcases h with hperforms | ⟨hfailed, -⟩
  · exact Or.inr (sees_of_performs hperforms hnames)
  · exact Or.inl hfailed

theorem Kept.bound {path : PathBuf} {file : File} {node : Node} {w : World}
    (h : Kept path file node w) : Names path file node w := ⟨h.names, h.nodes⟩

/-! ### Names that are created once -/

section Once

variable {reserved : PathBuf → Prop} {path : PathBuf} {file : File} {node : Node} {w w' : World}
  {labels : List (ι × Event)}

/-- **A reserved name stays bound over a run** in which nobody replaces it. -/
theorem Kept.of_run (h : (system ι reserved).Run w labels w') (hreserved : reserved path)
    (hreplace : ∀ label ∈ labels, ∀ bytes, label.2 ≠ ⟨.persist bytes path, .ok ()⟩)
    (hkept : Kept path file node w) : Kept path file node w' :=
  h.invariant (fun hsilent hk => hk.of_outside hreserved hsilent)
    (fun hmem hstep hk => hk.of_step hstep (hreplace _ hmem)) hkept

/-- What is seen of a bound name over a run in which nobody replaces it. -/
theorem Kept.sees_of_run (h : (system ι reserved).Run w labels w') (hreserved : reserved path)
    (hreplace : ∀ label ∈ labels, ∀ bytes, label.2 ≠ ⟨.persist bytes path, .ok ()⟩)
    (hkept : Kept path file node w) :
    ∀ label ∈ labels, Failed label.2 ∨ Sees path file node label.2 :=
  h.forall_mem_labels (fun hsilent hk => hk.of_outside hreserved hsilent)
    (fun hmem hstep hk => ⟨hk.of_step hstep (hreplace _ hmem), sees_of_step hstep hk.bound⟩) hkept

/-- What a call is told is a canonical path. -/
theorem canonical_of_run (h : (system ι reserved).Run w labels w') :
    ∀ label ∈ labels, ∀ requested canonical,
      label.2 = ⟨.canonicalize requested, .ok canonical⟩ → IsCanonicalPath canonical := by
  refine h.forall_mem_labels (I := fun _ => True) (fun _ _ => trivial) ?_ trivial
  rintro s t ⟨i, e⟩ - hstep -
  refine ⟨trivial, ?_⟩
  rintro requested canonical rfl
  rcases hstep with hperforms | ⟨hfailed, -⟩
  · cases hperforms with
    | canonicalize hcanonical => exact s.canonical_valid _ _ hcanonical
  · cases hfailed

/-- A name that is bound is not created. -/
theorem Kept.not_created {label : ι × Event} (h : (system ι reserved).step w label w')
    (hkept : Kept path file node w) :
    ∀ bytes, label.2 ≠ ⟨.persistNoclobber bytes path, .ok ()⟩ := by
  obtain ⟨i, e⟩ := label
  rintro bytes rfl
  rcases h with hperforms | ⟨hfailed, -⟩
  · cases hperforms with
    | persistNoclobber hfree _ =>
        rw [hkept.names] at hfree
        cases hfree
  · cases hfailed

/-- What a step that creates a name leaves behind. -/
theorem kept_of_created {i : ι} {bytes : Bytes}
    (h : (system ι reserved).step w (i, ⟨.persistNoclobber bytes path, .ok ()⟩) w') :
    ∃ file node, Kept path file node w' ∧ node.content = bytes ∧
      node.metadata.len = UInt64.ofNat bytes.length := by
  rcases h with hperforms | ⟨hfailed, -⟩
  · cases hperforms with
    | persistNoclobber _ hcreates =>
        obtain ⟨file, node, hkept, hcontent, -, hlen⟩ := kept_of_creates hcreates
        exact ⟨file, node, hkept, hcontent, hlen⟩
  · cases hfailed

/-- What a step that replaces a name leaves behind. -/
theorem kept_of_replaced {i : ι} {bytes : Bytes}
    (h : (system ι reserved).step w (i, ⟨.persist bytes path, .ok ()⟩) w') :
    ∃ file node, Kept path file node w' ∧ node.content = bytes := by
  rcases h with hperforms | ⟨hfailed, -⟩
  · cases hperforms with
    | persist hcreates =>
        obtain ⟨file, node, hkept, hcontent, -⟩ := kept_of_creates hcreates
        exact ⟨file, node, hkept, hcontent⟩
  · cases hfailed

/-- A name that is bound was bound before, or is created or replaced. -/
theorem bound_of_step {label : ι × Event} (h : (system ι reserved).step w label w')
    (hbound : w'.names path = some file) :
    w.names path = some file ∨ (∃ bytes, label.2 = ⟨.persistNoclobber bytes path, .ok ()⟩) ∨
      ∃ bytes, label.2 = ⟨.persist bytes path, .ok ()⟩ := by
  obtain ⟨i, e⟩ := label
  rcases h with hperforms | ⟨-, rfl⟩
  · cases hperforms with
    | @persistNoclobber _ bytes other hfree hcreates =>
        by_cases hother : path = other
        · exact Or.inr (Or.inl ⟨bytes, by rw [hother]⟩)
        · exact Or.inl ((hcreates.names path hother).symm.trans hbound)
    | @persist _ bytes other hcreates =>
        by_cases hother : path = other
        · exact Or.inr (Or.inr ⟨bytes, by rw [hother]⟩)
        · exact Or.inl ((hcreates.names path hother).symm.trans hbound)
    | _ => exact Or.inl hbound
  · exact Or.inl hbound

/-- **A reserved name is created once** over a run in which nobody replaces it. -/
theorem created_once {l₁ l₂ : List (ι × Event)} {i : ι} {bytes : Bytes}
    (h : (system ι reserved).Run w (l₁ ++ (i, ⟨.persistNoclobber bytes path, .ok ()⟩) :: l₂) w')
    (hreserved : reserved path)
    (hreplace : ∀ label ∈ l₂, ∀ bytes, label.2 ≠ ⟨.persist bytes path, .ok ()⟩) :
    ∀ label ∈ l₂, ∀ bytes, label.2 ≠ ⟨.persistNoclobber bytes path, .ok ()⟩ := by
  obtain ⟨u, -, hrest⟩ := Lts.run_append_iff.1 h
  obtain ⟨v, v', -, hstep, hlast⟩ := Lts.run_cons_iff.1 hrest
  obtain ⟨file, node, hkept, -⟩ := kept_of_created hstep
  exact hlast.forall_mem_labels (fun hsilent hk => Kept.of_outside hreserved hsilent hk)
    (fun hmem hstep hk => ⟨hk.of_step hstep (hreplace _ hmem), hk.not_created hstep⟩) hkept

end Once

/-! ### While one file keeps its name and its bytes -/

section Undisturbed

variable {reserved : PathBuf → Prop} {path : PathBuf} {file : File} {node : Node} {w w' : World}
  {labels : List (ι × Event)} {calls : ι → Prop}

theorem system_step_of_undisturbed {label : ι × Event}
    (h : (undisturbed reserved path file node calls).step w label w') :
    (system ι reserved).step w label w' :=
  h.1.imp_right fun hfailed => ⟨hfailed.1, hfailed.2.1⟩

theorem system_run_of_undisturbed
    (h : (undisturbed reserved path file node calls).Run w labels w') :
    (system ι reserved).Run w labels w' :=
  h.mono (fun hsilent => hsilent.1) system_step_of_undisturbed

/-- What is seen of the file: everything but failures, and the given calls have none. -/
theorem sees_of_undisturbed (h : (undisturbed reserved path file node calls).Run w labels w') :
    ∀ label ∈ labels, (Failed label.2 ∧ ¬ calls label.1) ∨ Sees path file node label.2 := by
  refine h.forall_mem_labels (I := fun _ => True) (fun _ _ => trivial) ?_ trivial
  rintro s t label - ⟨hstep, hnames, -⟩ -
  refine ⟨trivial, ?_⟩
  rcases hstep with hperforms | ⟨hfailed, -, hcalls⟩
  · exact Or.inr (sees_of_performs hperforms hnames)
  · exact Or.inl ⟨hfailed, hcalls⟩

/-- What the given calls see of another name that stays bound. -/
theorem Kept.sees_of_undisturbed {other : PathBuf} {otherFile : File} {otherNode : Node}
    (h : (undisturbed reserved path file node calls).Run w labels w') (hreserved : reserved other)
    (hreplace : ∀ label ∈ labels, ∀ bytes, label.2 ≠ ⟨.persist bytes other, .ok ()⟩)
    (hkept : Kept other otherFile otherNode w) :
    ∀ label ∈ labels, calls label.1 → Sees other otherFile otherNode label.2 := by
  refine h.forall_mem_labels (fun hsilent hk => Kept.of_outside hreserved hsilent.1 hk) ?_ hkept
  intro s t label hmem hstep hk
  refine ⟨hk.of_step (system_step_of_undisturbed hstep) (hreplace _ hmem), fun hcalls => ?_⟩
  rcases hstep.1 with hperforms | ⟨-, -, hnot⟩
  · exact sees_of_performs hperforms hk.bound
  · exact absurd hcalls hnot

end Undisturbed

/-! ### Reading in pieces -/

section Reading

variable {ε : Type}

/-- The answer of an operation, or its failure under the error of the caller. -/
def attempt {α : Type} (answer : Except IoErrorKind α) (onError : IoErrorKind → ε) : Fs ε α :=
  Prog.ofExcept (Checks.mapErr onError answer)

@[simp] theorem attempt_returns_iff {α : Type} {answer : Except IoErrorKind α}
    {onError : IoErrorKind → ε} {events : List Event} {a : α} :
    (attempt answer onError).Returns events a ↔ events = [] ∧ answer = .ok a := by
  rw [attempt, Prog.ofExcept_returns_iff, Checks.mapErr_eq_ok_iff]

theorem attempt_bind_returns_iff {α β : Type} {answer : Except IoErrorKind α}
    {onError : IoErrorKind → ε} {f : α → Fs ε β} {events : List Event} {b : β} :
    (attempt answer onError >>= f).Returns events b ↔
      ∃ a, answer = .ok a ∧ (f a).Returns events b := by
  rw [attempt, Prog.ofExcept_bind_returns_iff]
  simp only [Checks.mapErr_eq_ok_iff]

/-- Read a file in pieces until a read returns nothing or nothing more is asked for. -/
def readUntilEnd (file : File) (request : ℕ → ℕ) (onError : IoErrorKind → ε) :
    ℕ → Bytes → Fs ε Bytes
  | 0, _ => .unfinished
  | fuel + 1, bytes =>
      if request bytes.length = 0 then .ret bytes
      else do
        let answer ← Prog.call (.read file bytes.length (request bytes.length))
        let chunk ← attempt answer onError
        if chunk.isEmpty then .ret bytes
        else readUntilEnd file request onError fuel (bytes ++ chunk)

variable {path : PathBuf} {file : File} {node : Node} {request : ℕ → ℕ}
  {onError : IoErrorKind → ε}

/-- A file that is read in one piece. -/
theorem readUntilEnd_returns_of_piece {bytes : Bytes} {fuel : ℕ} (hne : bytes ≠ [])
    (hfirst : request 0 ≠ 0) (hsecond : request bytes.length ≠ 0) :
    (readUntilEnd file request onError (fuel + 2) []).Returns
      [⟨.read file 0 (request 0), .ok bytes⟩,
        ⟨.read file bytes.length (request bytes.length), .ok []⟩] bytes := by
  rw [readUntilEnd, List.length_nil, if_neg hfirst]
  refine Prog.call_bind_returns_iff.2 ⟨.ok bytes, _, rfl, ?_⟩
  refine attempt_bind_returns_iff.2 ⟨bytes, rfl, ?_⟩
  rw [if_neg (by simpa using hne), readUntilEnd, List.nil_append, if_neg hsecond]
  refine Prog.call_bind_returns_iff.2 ⟨.ok [], _, rfl, ?_⟩
  exact attempt_bind_returns_iff.2 ⟨[], rfl, Prog.Reaches.here _⟩

/-- A piece at the end of what was read so far extends it. -/
theorem ReadOf.append {content bytes chunk : Bytes} {limit : ℕ}
    (h : ReadOf content bytes.length limit chunk) (hbytes : bytes <+: content) :
    bytes ++ chunk <+: content := by
  obtain ⟨rest, rfl⟩ := hbytes
  have hstarts := h.starts
  rw [List.drop_left] at hstarts
  exact (List.prefix_append_right_inj bytes).2 hstarts

/-- Nothing is left to read at the end. -/
theorem ReadOf.eq_of_nil {content bytes : Bytes} {limit : ℕ}
    (h : ReadOf content bytes.length limit []) (hlimit : limit ≠ 0) (hbytes : bytes <+: content) :
    bytes = content := by
  have hlength := (h.nonempty rfl).resolve_left hlimit
  exact hbytes.eq_of_length (Nat.le_antisymm hbytes.length_le hlength)

/-- **Pieces of a file that does not change make the file**: all of it, or as much as was asked
for. -/
theorem readUntilEnd_returns {fuel : ℕ} {bytes result : Bytes} {events : List Event}
    (h : (readUntilEnd file request onError fuel bytes).Returns events result)
    (hsees : ∀ e ∈ events, Failed e ∨ Sees path file node e) (hbytes : bytes <+: node.content) :
    result <+: node.content ∧ (request result.length = 0 ∨ result = node.content) := by
  induction fuel generalizing bytes events with
  | zero => simp [readUntilEnd] at h
  | succ fuel ih =>
      rw [readUntilEnd] at h
      split at h
      · rename_i hrequest
        obtain ⟨-, rfl⟩ := Prog.ret_returns_iff.1 h
        exact ⟨hbytes, Or.inl hrequest⟩
      · rename_i hrequest
        obtain ⟨e₁, answer, rest, hcall, hrest, rfl⟩ := Prog.bind_returns_iff.1 h
        obtain ⟨e₂, chunk, e₃, hattempt, hloop, rfl⟩ := Prog.bind_returns_iff.1 hrest
        obtain ⟨rfl, rfl⟩ := attempt_returns_iff.1 hattempt
        obtain rfl := Prog.call_returns_iff.1 hcall
        -- an answered read is a piece of the file
        have hread : ReadOf node.content bytes.length (request bytes.length) chunk := by
          have hmem : (⟨.read file bytes.length (request bytes.length), .ok chunk⟩ : Event) ∈
              [⟨.read file bytes.length (request bytes.length), .ok chunk⟩] ++ ([] ++ e₃) :=
            List.mem_cons_self
          rcases hsees _ hmem with hfailed | hsee
          · cases hfailed
          · obtain ⟨chunk', hchunk', hread⟩ := hsee rfl
            obtain rfl := Except.ok.inj hchunk'
            exact hread
        split at hloop
        · rename_i hempty
          obtain ⟨-, rfl⟩ := Prog.ret_returns_iff.1 hloop
          rw [List.isEmpty_iff.1 hempty] at hread
          exact ⟨hbytes, Or.inr (hread.eq_of_nil hrequest hbytes)⟩
        · exact ih hloop (fun e he => hsees e (by simp [he])) (hread.append hbytes)

/-- The same with enough fuel, and without failures. -/
theorem readUntilEnd_ensures {Q : Event → Prop} (hQ : ∀ e, Q e → Sees path file node e)
    {fuel : ℕ} {bytes : Bytes} (hbytes : bytes <+: node.content)
    (hfuel : node.content.length < bytes.length + fuel) :
    Prog.Ensures Q (fun result => result <+: node.content ∧
      (request result.length = 0 ∨ result = node.content))
      (readUntilEnd file request onError fuel bytes) := by
  induction fuel generalizing bytes with
  | zero => exact absurd hbytes.length_le (by omega)
  | succ fuel ih =>
      rw [readUntilEnd]
      split
      · rename_i hrequest
        exact ⟨hbytes, Or.inl hrequest⟩
      · rename_i hrequest
        refine Prog.Ensures.bind (Prog.Ensures.call fun ans hans => hQ _ hans rfl) ?_
        rintro _ ⟨chunk, rfl, hread⟩
        change Prog.Ensures _ _ (if chunk.isEmpty then _ else _)
        split
        · rename_i hempty
          rw [List.isEmpty_iff.1 hempty] at hread
          exact ⟨hbytes, Or.inr (hread.eq_of_nil hrequest hbytes)⟩
        · rename_i hempty
          have hpos : 0 < chunk.length := by
            rw [List.length_pos_iff]
            simpa using hempty
          exact ih (hread.append hbytes) (by rw [List.length_append]; omega)

/-- A name that is bound is opened. -/
theorem ensures_openFile {α : Type} {Q : Event → Prop} {post : α → Prop} {k : File → Fs ε α}
    (hQ : ∀ e, Q e → Sees path file node e) (hk : Prog.Ensures Q post (k file)) :
    Prog.Ensures Q post (do
      let source ← attempt (← Prog.call (.openFile path)) onError
      k source) := by
  intro ans hans
  obtain rfl : ans = .ok file := hQ _ hans rfl
  exact hk

/-- A file that is open has its metadata. -/
theorem ensures_metadata {α : Type} {Q : Event → Prop} {post : α → Prop} {k : Metadata → Fs ε α}
    (hQ : ∀ e, Q e → Sees path file node e) (hk : Prog.Ensures Q post (k node.metadata)) :
    Prog.Ensures Q post (do
      let metadata ← attempt (← Prog.call (.metadata file)) onError
      k metadata) := by
  intro ans hans
  obtain rfl : ans = .ok node.metadata := hQ _ hans rfl
  exact hk

end Reading

end FileSystem
