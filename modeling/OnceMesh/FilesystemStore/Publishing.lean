import OnceMesh.Disk
import OnceMesh.Publication.NewestFirst
import OnceMesh.TransitionSystem

/-!
# Concurrent publication on a filesystem

Several processes call `put_result` on the same directory. A call writes the manifest under its own
digest first and then under the digest of its action; each `_atomic_write` looks for the file,
writes a temporary file beside it, links the file to its name and takes the temporary name away.
Between any two steps other processes move, a system call may fail, and a process may die.

`digest_index_first` is about every state of every interleaving: what can be read is complete and
stays as it is, and every candidate is found under its own digest.
-/

namespace OnceMesh

open Python

/-- The two directories that `put_result` writes to. -/
inductive ResultRoot where
  | results
  | actions
  deriving DecidableEq

/-- How far a process has come in a call of `_atomic_write`. -/
inductive WritePhase where
  /-- Before `path.exists()`. -/
  | checking
  /-- Before `mkstemp`. -/
  | creating
  /-- The temporary file is open, and some octets are written. -/
  | writing (temporary : Str × Str) (file written : ℕ)
  /-- The temporary file is complete, synchronized and closed. -/
  | linking (temporary : Str × Str) (file : ℕ)
  /-- In the `finally` clause, with an exception or without. -/
  | unlinking (temporary : Str × Str) (raised : Bool)

/-- How far a process has come in a call of `put_result`. -/
inductive PutPhase where
  | idle
  | putting (manifest : Manifest) (root : ResultRoot) (phase : WritePhase)

/-- What can happen next to a process. -/
inductive PutEvent (π : Type) where
  | call (p : π) (document : Object)
  | check (p : π)
  | create (p : π) (name : Str)
  | write (p : π) (count : ℕ)
  | sync (p : π)
  | link (p : π)
  | unlink (p : π)
  /-- A system call raises an `OSError`. -/
  | fail (p : π)
  /-- The process dies. -/
  | crash (p : π)

/-- A character of the random part of a temporary name. -/
def isTokenChar (c : CodePoint) : Bool :=
  (0x61 ≤ c.val && c.val ≤ 0x7A) || (0x30 ≤ c.val && c.val ≤ 0x39) || c.val = 0x5F

/-- `tempfile.mkstemp(prefix=".oncemesh-")` can choose the name. -/
def isTemporaryName (name : Str) : Bool :=
  startsWith name (lit ".oncemesh-") && (name.drop 10).length = 8 && (name.drop 10).all isTokenChar

/-- The directories and the processes. The last field records the manifests of the calls. -/
structure PublishState (π : Type) where
  disk : ResultRoot → Disk (Str × Str) UInt8
  phase : π → PutPhase
  called : List Manifest

namespace PublishState

variable {π : Type} (s : PublishState π)

/-- A directory changes. -/
def setDisk (root : ResultRoot) (disk : Disk (Str × Str) UInt8) : PublishState π :=
  { s with disk := Function.update s.disk root disk }

/-- A process moves to another phase. -/
def setPhase [DecidableEq π] (p : π) (phase : PutPhase) : PublishState π :=
  { s with phase := Function.update s.phase p phase }

variable {s}

section

variable {root : ResultRoot} {disk : Disk (Str × Str) UInt8}

/-- A change of a disk is not a call. -/
@[simp]
theorem called_setDisk : (s.setDisk root disk).called = s.called := rfl

/-- A change of a disk moves no process. -/
@[simp]
theorem phase_setDisk : (s.setDisk root disk).phase = s.phase := rfl

/-- The disk that is changed is the new one. -/
@[simp]
theorem disk_setDisk : (s.setDisk root disk).disk root = disk := Function.update_self _ _ _

/-- A change of a disk leaves the other one as it is. -/
theorem disk_setDisk_of_ne {root' : ResultRoot} (h : root' ≠ root) :
    (s.setDisk root disk).disk root' = s.disk root' :=
  Function.update_of_ne h _ _

/-- A disk that is replaced by itself changes nothing. -/
@[simp]
theorem setDisk_self : s.setDisk root (s.disk root) = s := by
  rw [setDisk, Function.update_eq_self]

end

variable [DecidableEq π] {p : π} {phase : PutPhase}

/-- A process that moves leaves the disks as they are. -/
@[simp]
theorem disk_setPhase : (s.setPhase p phase).disk = s.disk := rfl

/-- A process that moves is not a call. -/
@[simp]
theorem called_setPhase : (s.setPhase p phase).called = s.called := rfl

/-- The process that moves is in the new phase. -/
@[simp]
theorem phase_setPhase : (s.setPhase p phase).phase p = phase := Function.update_self _ _ _

/-- A process that moves leaves the others where they are. -/
theorem phase_setPhase_of_ne {q : π} (h : q ≠ p) :
    (s.setPhase p phase).phase q = s.phase q :=
  Function.update_of_ne h _ _

end PublishState

section

variable [Sha256]

/-- The path of a manifest in a directory. -/
def ResultRoot.path (manifest : Manifest) : ResultRoot → Str × Str
  | .results => fanOut manifest.digest ".json"
  | .actions => documentPath manifest.fields.actionDigest manifest.digest

section

variable {π : Type} [DecidableEq π]

namespace PublishState

variable (s : PublishState π)

/-- A call of `_atomic_write` returns. -/
def finish (p : π) (manifest : Manifest) : ResultRoot → PublishState π
  | .results => s.setPhase p (.putting manifest .actions .checking)
  | .actions => s.setPhase p .idle

/-- What the readers of the store find on the disk. -/
def store (name : Str) : FilesystemStore :=
  { FilesystemStore.empty name with
    results := (s.disk .results).snapshot
    actions := (s.disk .actions).snapshot }

end PublishState

/-- One step of a process. -/
def publishStep (s : PublishState π) : PutEvent π → Option (PublishState π)
  | .call p document =>
    match s.phase p, Manifest.ofValue document.value with
    | .idle, .ok manifest =>
      some { s.setPhase p (.putting manifest .results .checking) with
        called := manifest :: s.called }
    -- `validate_manifest` raises
    | .idle, .error _ => some s
    | _, _ => none
  | .check p =>
    match s.phase p with
    | .putting manifest root .checking =>
      if (s.disk root).names.contains (root.path manifest) then some (s.finish p manifest root)
      else some (s.setPhase p (.putting manifest root .creating))
    | _ => none
  | .create p name =>
    match s.phase p with
    | .putting manifest root .creating =>
      let temporary := ((root.path manifest).1, name)
      if isTemporaryName name ∧ (s.disk root).names.contains temporary = false then
        some ((s.setDisk root ((s.disk root).create temporary)).setPhase p
          (.putting manifest root (.writing temporary (s.disk root).files.length 0)))
      else none
    | _ => none
  | .write p count =>
    match s.phase p with
    | .putting manifest root (.writing temporary file written) =>
      let data := ((canonicalBytes manifest.document).drop written).take count
      some ((s.setDisk root ((s.disk root).append file data)).setPhase p
        (.putting manifest root (.writing temporary file (written + data.length))))
    | _ => none
  | .sync p =>
    match s.phase p with
    | .putting manifest root (.writing temporary file written) =>
      if written = (canonicalBytes manifest.document).length then
        some (s.setPhase p (.putting manifest root (.linking temporary file)))
      else none
    | _ => none
  | .link p =>
    match s.phase p with
    | .putting manifest root (.linking temporary file) =>
      some ((s.setDisk root ((s.disk root).link file (root.path manifest))).setPhase p
        (.putting manifest root (.unlinking temporary false)))
    | _ => none
  | .unlink p =>
    match s.phase p with
    | .putting manifest root (.unlinking temporary raised) =>
      let t := s.setDisk root ((s.disk root).unlink temporary)
      some (if raised then t.setPhase p .idle else t.finish p manifest root)
    | _ => none
  | .fail p =>
    match s.phase p with
    | .putting manifest root (.writing temporary _ _)
    | .putting manifest root (.linking temporary _) =>
      some (s.setPhase p (.putting manifest root (.unlinking temporary true)))
    | .putting _ _ _ => some (s.setPhase p .idle)
    | .idle => none
  | .crash p => some (s.setPhase p .idle)

/-- The processes over an empty directory. -/
def publishSystem (π : Type) [DecidableEq π] : TransitionSystem (PublishState π) (PutEvent π) where
  init := { disk := fun _ => .empty, phase := fun _ => .idle, called := [] }
  step := publishStep

/-! ### Names -/

/-- A reader lists the name. -/
def Listed (path : Str × Str) : Prop := endsWith path.2 (lit ".json") = true

omit [Sha256] in
/-- A temporary name is not listed. -/
theorem not_listed_of_isTemporaryName {path : Str × Str} (h : isTemporaryName path.2 = true) :
    ¬Listed path := by
  simp only [isTemporaryName, Bool.and_eq_true, decide_eq_true_eq] at h
  obtain ⟨⟨-, hlength⟩, hall⟩ := h
  intro hlisted
  have hsuffix : lit ".json" <:+ path.2 := List.isSuffixOf_iff_suffix.mp hlisted
  -- the last five characters are in the random part, which has no dot
  have htoken : lit ".json" <:+ path.2.drop 10 := by
    refine List.suffix_of_suffix_length_le hsuffix (List.drop_suffix 10 _) ?_
    rw [hlength]
    decide
  have hdot := List.all_eq_true.mp hall 0x2E (htoken.subset (by decide))
  exact absurd hdot (by decide)

/-- The path of a manifest is one that a directory listing finds. -/
theorem ResultRoot.listed_path (manifest : Manifest) (root : ResultRoot) :
    Listed (root.path manifest) := by
  cases root with
  | results => exact List.isSuffixOf_iff_suffix.mpr (List.suffix_append _ _)
  | actions => exact endsWith_documentPath _ _

/-- Manifests with one path among the actions have one path among the results. -/
theorem ResultRoot.path_results_of_path_actions {m m' : Manifest}
    (h : ResultRoot.path m .actions = ResultRoot.path m' .actions) :
    ResultRoot.path m .results = ResultRoot.path m' .results := by
  have hname : digestHex m.digest = digestHex m'.digest :=
    List.append_cancel_right (congrArg Prod.snd h)
  have hdigest : m.digest = m'.digest :=
    (digestHex_inj (isDigest_digestBytes _) (isDigest_digestBytes _)).mp hname
  rw [ResultRoot.path, ResultRoot.path, hdigest]

/-! ### The invariant -/

/-- A process has a file open that only its temporary name leads to. -/
structure OpenFile (disk : Disk (Str × Str) UInt8) (temporary : Str × Str) (file : ℕ)
    (data : Bytes) : Prop where
  isTemporary : isTemporaryName temporary.2 = true
  named : disk.names.get? temporary = some file
  sole : ∀ name, disk.names.get? name = some file → name = temporary
  contents : disk.contents file = data

namespace WritePhase

/-- The disk is as a call of `_atomic_write` of the data left it. -/
def Consistent (disk : Disk (Str × Str) UInt8) (data : Bytes) : WritePhase → Prop
  | .checking | .creating => True
  | .writing temporary file written => OpenFile disk temporary file (data.take written)
  | .linking temporary file => OpenFile disk temporary file data
  | .unlinking temporary _ =>
    isTemporaryName temporary.2 = true ∧ disk.names.contains temporary = true

/-- The temporary name that the call will take away. -/
def temporary? : WritePhase → Option (Str × Str)
  | .checking | .creating => none
  | .writing temporary _ _ | .linking temporary _ | .unlinking temporary _ => some temporary

end WritePhase

/-- The process will take the temporary name away. -/
def PutPhase.Owns (phase : PutPhase) (root : ResultRoot) (temporary : Str × Str) : Prop :=
  ∃ manifest write, phase = .putting manifest root write ∧ write.temporary? = some temporary

/-- What holds of a process in a phase. -/
structure PutPhase.Consistent (s : PublishState π) (manifest : Manifest) (root : ResultRoot)
    (write : WritePhase) : Prop where
  called : manifest ∈ s.called
  /-- The manifest is under its digest before it is written under its action. -/
  first : root = .actions →
    (s.disk .results).names.contains (ResultRoot.path manifest .results) = true
  /-- Without an exception, the manifest is there when the call of `_atomic_write` ends. -/
  published : ∀ temporary, write = .unlinking temporary false →
    (s.disk root).names.contains (root.path manifest) = true
  write : write.Consistent (s.disk root) (canonicalBytes manifest.document)

/-- The invariant of the processes and the disk. -/
structure PublishState.Consistent (s : PublishState π) : Prop where
  valid : ∀ root, (s.disk root).Valid
  wellFormed : ∀ manifest ∈ s.called, manifest.document.WellFormed
  /-- What is listed is complete. -/
  complete : ∀ root path data, (s.disk root).read? path = some data → Listed path →
    ∃ manifest ∈ s.called, path = root.path manifest ∧ data = canonicalBytes manifest.document
  /-- What is under its action is under its digest. -/
  indexed : ∀ manifest,
    (s.disk .actions).names.contains (ResultRoot.path manifest .actions) = true →
    (s.disk .results).names.contains (ResultRoot.path manifest .results) = true
  phases : ∀ p manifest root write, s.phase p = .putting manifest root write →
    PutPhase.Consistent s manifest root write
  owned : ∀ p q root temporary, (s.phase p).Owns root temporary →
    (s.phase q).Owns root temporary → p = q

omit [Sha256] in
/-- The temporary file of a write has a temporary name, which is taken. -/
theorem WritePhase.Consistent.contains {disk : Disk (Str × Str) UInt8} {data : Bytes}
    {write : WritePhase} (h : write.Consistent disk data) {temporary : Str × Str}
    (htemporary : write.temporary? = some temporary) :
    isTemporaryName temporary.2 = true ∧ disk.names.contains temporary = true := by
  cases write with
  | checking | creating => cases htemporary
  | writing t file written =>
    cases htemporary
    exact ⟨h.isTemporary, Disk.contains_eq_true.mpr ⟨file, h.named⟩⟩
  | linking t file =>
    cases htemporary
    exact ⟨h.isTemporary, Disk.contains_eq_true.mpr ⟨file, h.named⟩⟩
  | unlinking t raised =>
    cases htemporary
    exact h

/-! ### What the operations on a disk leave as it is -/

section

variable {disk : Disk (Str × Str) UInt8} {data : Bytes} {write : WritePhase}

omit [Sha256] in
/-- A phase survives an operation that keeps its temporary name and its open file. -/
theorem WritePhase.Consistent.mono {disk' : Disk (Str × Str) UInt8} (h : write.Consistent disk data)
    (hnamed : ∀ temporary, write.temporary? = some temporary →
      disk'.names.get? temporary = disk.names.get? temporary)
    (hsole : ∀ temporary file data, write.temporary? = some temporary →
      OpenFile disk temporary file data → OpenFile disk' temporary file data) :
    write.Consistent disk' data := by
  cases write with
  | checking | creating => trivial
  | writing temporary file written => exact hsole _ _ _ rfl h
  | linking temporary file => exact hsole _ _ _ rfl h
  | unlinking temporary raised =>
    refine ⟨h.1, ?_⟩
    rw [Python.Dict.contains, hnamed temporary rfl]
    exact h.2

omit [Sha256] in
/-- A write stays consistent when another file is created. -/
theorem WritePhase.Consistent.create (h : write.Consistent disk data) (hvalid : disk.Valid)
    {name : Str × Str} (hfree : disk.names.contains name = false) :
    write.Consistent (disk.create name) data := by
  have hne : ∀ temporary, write.temporary? = some temporary → temporary ≠ name := by
    rintro temporary htemporary rfl
    rw [(h.contains htemporary).2] at hfree
    cases hfree
  refine h.mono (fun temporary htemporary => ?_) fun temporary file data htemporary hopen => ?_
  · rw [Disk.get?_create, if_neg (hne temporary htemporary)]
  · have hfile := hvalid _ _ hopen.named
    refine ⟨hopen.isTemporary, ?_, fun name' hname' => ?_, ?_⟩
    · rw [Disk.get?_create, if_neg (hne temporary htemporary)]
      exact hopen.named
    · rw [Disk.get?_create] at hname'
      split_ifs at hname' with heq
      · -- the new file is not the open one
        cases hname'
        omega
      · exact hopen.sole name' hname'
    · rw [Disk.contents_create hfile]
      exact hopen.contents

omit [Sha256] in
/-- A write stays consistent when another temporary file is written to. -/
theorem WritePhase.Consistent.append (h : write.Consistent disk data) {temporary : Str × Str}
    {file : ℕ} {octets contents : Bytes} (hopen : OpenFile disk temporary file contents)
    (hother : write.temporary? ≠ some temporary) :
    write.Consistent (disk.append file octets) data := by
  refine h.mono (fun _ _ => rfl) fun temporary' file' data' htemporary hopen' => ?_
  refine ⟨hopen'.isTemporary, hopen'.named, hopen'.sole, ?_⟩
  rw [Disk.contents_append_of_ne]
  · exact hopen'.contents
  · -- two names for one open file would be the same
    rintro rfl
    rw [hopen.sole temporary' hopen'.named] at htemporary
    exact hother htemporary

omit [Sha256] in
/-- A write stays consistent when another temporary file is linked. -/
theorem WritePhase.Consistent.link (h : write.Consistent disk data) {temporary : Str × Str}
    {file : ℕ} {contents : Bytes} (hopen : OpenFile disk temporary file contents)
    (hother : write.temporary? ≠ some temporary) {name : Str × Str} (hlisted : Listed name) :
    write.Consistent (disk.link file name) data := by
  have hne : ∀ temporary', write.temporary? = some temporary' → temporary' ≠ name := by
    rintro temporary' htemporary rfl
    exact not_listed_of_isTemporaryName (h.contains htemporary).1 hlisted
  have hnamed : ∀ temporary', write.temporary? = some temporary' →
      (disk.link file name).names.get? temporary' = disk.names.get? temporary' := by
    intro temporary' htemporary
    rw [Disk.get?_link, if_neg fun heq => hne temporary' htemporary heq.1]
  refine h.mono hnamed fun temporary' file' data' htemporary hopen' => ?_
  refine ⟨hopen'.isTemporary, ?_, fun name' hname' => ?_, ?_⟩
  · rw [hnamed temporary' htemporary]
    exact hopen'.named
  · rw [Disk.get?_link] at hname'
    split_ifs at hname' with heq
    · cases hname'
      rw [hopen.sole temporary' hopen'.named] at htemporary
      exact absurd htemporary hother
    · exact hopen'.sole name' hname'
  · rw [Disk.contents_link]
    exact hopen'.contents

omit [Sha256] in
/-- A write stays consistent when another temporary name is taken away. -/
theorem WritePhase.Consistent.unlink (h : write.Consistent disk data) {temporary : Str × Str}
    (hother : write.temporary? ≠ some temporary) :
    write.Consistent (disk.unlink temporary) data := by
  have hnamed : ∀ temporary', write.temporary? = some temporary' →
      (disk.unlink temporary).names.get? temporary' = disk.names.get? temporary' := by
    intro temporary' htemporary
    apply Option.ext
    intro file
    rw [Disk.get?_unlink_eq_some, and_iff_left]
    rintro rfl
    exact hother htemporary
  refine h.mono hnamed fun temporary' file' data' htemporary hopen' => ?_
  refine ⟨hopen'.isTemporary, ?_, fun name' hname' => ?_, hopen'.contents⟩
  · rw [hnamed temporary' htemporary]
    exact hopen'.named
  · exact hopen'.sole name' (Disk.get?_unlink_eq_some.mp hname').1

end

omit [DecidableEq π] in
/-- A process whose directory changes is where it was, apart from its own file. -/
theorem PutPhase.Consistent.setDisk {s : PublishState π} {manifest : Manifest} {root : ResultRoot}
    {write write' : WritePhase} (hp : PutPhase.Consistent s manifest root write)
    {disk : Disk (Str × Str) UInt8}
    (hpublished : ∀ temporary, write' = .unlinking temporary false →
      disk.names.contains (root.path manifest) = true)
    (hwrite : write'.Consistent disk (canonicalBytes manifest.document)) :
    PutPhase.Consistent (s.setDisk root disk) manifest root write' := by
  refine ⟨hp.called, ?_, fun temporary heq => ?_, ?_⟩
  · rintro rfl
    rw [PublishState.disk_setDisk_of_ne (by decide)]
    exact hp.first rfl
  · rw [PublishState.disk_setDisk]
    exact hpublished temporary heq
  · rw [PublishState.disk_setDisk]
    exact hwrite

/-! ### Steps -/

namespace PublishState

variable {s : PublishState π}

omit [DecidableEq π] in
/-- What a process owns exists. -/
theorem Consistent.contains_of_owns (h : s.Consistent) {p : π} {root : ResultRoot}
    {temporary : Str × Str} (howns : (s.phase p).Owns root temporary) :
    (s.disk root).names.contains temporary = true := by
  obtain ⟨manifest, write, hphase, htemporary⟩ := howns
  exact ((h.phases p manifest root write hphase).write.contains htemporary).2

/-- What a step of a process does to its directory: nothing that is listed is lost, and what is new
is a complete manifest that has already been written under its digest. -/
structure DiskStep (s : PublishState π) (p : π) (root : ResultRoot)
    (disk : Disk (Str × Str) UInt8) : Prop where
  valid : disk.Valid
  kept : ∀ path data, Listed path → (s.disk root).read? path = some data →
    disk.read? path = some data
  new : ∀ path data, Listed path → disk.read? path = some data →
    (s.disk root).read? path = some data ∨
      ∃ manifest ∈ s.called, path = root.path manifest ∧ data = canonicalBytes manifest.document ∧
        (root = .actions →
          (s.disk .results).names.contains (ResultRoot.path manifest .results) = true)
  others : ∀ q, q ≠ p → ∀ manifest write, s.phase q = .putting manifest root write →
    write.Consistent disk (canonicalBytes manifest.document)

/-- A process moves on after a step. -/
theorem Consistent.change (h : s.Consistent) {p : π} {root : ResultRoot}
    {disk : Disk (Str × Str) UInt8} (hdisk : s.DiskStep p root disk) {phase : PutPhase}
    (hphase : ∀ manifest root' write, phase = .putting manifest root' write →
      PutPhase.Consistent (s.setDisk root disk) manifest root' write)
    (howns : ∀ root' temporary, phase.Owns root' temporary →
      (s.phase p).Owns root' temporary ∨
        root' = root ∧ (s.disk root).names.contains temporary = false) :
    ((s.setDisk root disk).setPhase p phase).Consistent := by
  have hkept : ∀ root' path, Listed path → (s.disk root').names.contains path = true →
      ((s.setDisk root disk).disk root').names.contains path = true := by
    intro root' path hlisted hcontains
    obtain ⟨data, hdata⟩ := Disk.contains_iff_read?.mp hcontains
    by_cases hroot : root' = root
    · rw [hroot] at hdata ⊢
      rw [disk_setDisk]
      exact Disk.contains_of_read? (hdisk.kept path data hlisted hdata)
    · rw [disk_setDisk_of_ne hroot]
      exact hcontains
  refine
    { valid := fun root' => ?_, wellFormed := h.wellFormed, complete := fun root' path data => ?_
      indexed := fun manifest hcontains => ?_, phases := fun q manifest root' write hq => ?_
      owned := ?_ }
  · rw [disk_setPhase]
    by_cases hroot : root' = root
    · rw [hroot, disk_setDisk]
      exact hdisk.valid
    · rw [disk_setDisk_of_ne hroot]
      exact h.valid root'
  · rw [disk_setPhase, called_setPhase, called_setDisk]
    by_cases hroot : root' = root
    · rw [hroot, disk_setDisk]
      intro hread hlisted
      rcases hdisk.new path data hlisted hread with hold | ⟨manifest, hmem, hpath, hdata, -⟩
      · exact h.complete root path data hold hlisted
      · exact ⟨manifest, hmem, hpath, hdata⟩
    · rw [disk_setDisk_of_ne hroot]
      exact h.complete root' path data
  · rw [disk_setPhase] at hcontains ⊢
    refine hkept _ _ (ResultRoot.listed_path _ _) ?_
    by_cases hroot : ResultRoot.actions = root
    · obtain ⟨data, hdata⟩ := Disk.contains_iff_read?.mp hcontains
      subst hroot
      rw [disk_setDisk] at hdata
      rcases hdisk.new _ data (ResultRoot.listed_path _ _) hdata with hold | ⟨m, -, hpath, -, hm⟩
      · exact h.indexed manifest (Disk.contains_of_read? hold)
      · rw [ResultRoot.path_results_of_path_actions hpath]
        exact hm rfl
    · rw [disk_setDisk_of_ne hroot] at hcontains
      exact h.indexed manifest hcontains
  · have hphases : PutPhase.Consistent (s.setDisk root disk) manifest root' write := by
      by_cases hqp : q = p
      · rw [hqp, phase_setPhase] at hq
        exact hphase manifest root' write hq
      · rw [phase_setPhase_of_ne hqp] at hq
        obtain ⟨hcalled, hfirst, hpublished, hwrite⟩ := h.phases q manifest root' write hq
        refine ⟨hcalled, fun hactions => hkept _ _ (ResultRoot.listed_path _ _) (hfirst hactions),
          fun t ht => hkept _ _ (ResultRoot.listed_path _ _) (hpublished t ht), ?_⟩
        by_cases hroot : root' = root
        · rw [hroot, disk_setDisk]
          exact hdisk.others q hqp manifest write (hroot ▸ hq)
        · rw [disk_setDisk_of_ne hroot]
          exact hwrite
    exact ⟨hphases.called, hphases.first, hphases.published, hphases.write⟩
  · -- what the process newly owns did not exist
    have hnew : ∀ q, q ≠ p → ∀ root' temporary, phase.Owns root' temporary →
        (s.phase q).Owns root' temporary → False := by
      intro q hqp root' temporary hp hq
      rcases howns root' temporary hp with hold | ⟨rfl, hfree⟩
      · exact hqp (h.owned q p root' temporary hq hold)
      · rw [h.contains_of_owns hq] at hfree
        cases hfree
    intro q q' root' temporary hq hq'
    by_cases hqp : q = p <;> by_cases hqp' : q' = p
    · rw [hqp, hqp']
    · rw [hqp, phase_setPhase] at hq
      rw [phase_setPhase_of_ne hqp'] at hq'
      exact (hnew q' hqp' root' temporary hq hq').elim
    · rw [hqp', phase_setPhase] at hq'
      rw [phase_setPhase_of_ne hqp] at hq
      exact (hnew q hqp root' temporary hq' hq).elim
    · rw [phase_setPhase_of_ne hqp] at hq
      rw [phase_setPhase_of_ne hqp'] at hq'
      exact h.owned q q' root' temporary hq hq'

/-- A process moves on and leaves the disk as it is. -/
theorem Consistent.move (h : s.Consistent) {p : π} {phase : PutPhase}
    (hphase : ∀ manifest root write, phase = .putting manifest root write →
      PutPhase.Consistent s manifest root write)
    (howns : ∀ root temporary, phase.Owns root temporary → (s.phase p).Owns root temporary) :
    (s.setPhase p phase).Consistent := by
  have hself : s.DiskStep p .results (s.disk .results) :=
    { valid := h.valid _, kept := fun _ _ _ hdata => hdata, new := fun _ _ _ hdata => .inl hdata
      others := fun q _ manifest write hq => (h.phases q manifest _ write hq).write }
  have hphase' : ∀ manifest root write, phase = .putting manifest root write →
      PutPhase.Consistent (s.setDisk .results (s.disk .results)) manifest root write := by
    rwa [setDisk_self]
  have hchange := h.change hself hphase' fun root temporary hown => .inl (howns root temporary hown)
  rwa [setDisk_self] at hchange

/-- A process ends its call. -/
theorem Consistent.setPhase_idle (h : s.Consistent) (p : π) : (s.setPhase p .idle).Consistent := by
  refine h.move ?_ ?_
  · rintro manifest root write ⟨⟩
  · rintro root temporary ⟨manifest, write, ⟨⟩, -⟩

/-- The manifest is written to one directory. -/
theorem Consistent.finish (h : s.Consistent) {p : π} {manifest : Manifest} {root : ResultRoot}
    (hcalled : manifest ∈ s.called)
    (hpublished : (s.disk root).names.contains (root.path manifest) = true) :
    (s.finish p manifest root).Consistent := by
  cases root with
  | actions => exact h.setPhase_idle p
  | results =>
    refine h.move ?_ ?_
    · rintro _ _ _ ⟨⟩
      exact ⟨hcalled, fun _ => hpublished, by rintro _ ⟨⟩, trivial⟩
    · rintro root temporary ⟨_, _, ⟨⟩, ⟨⟩⟩

omit [Sha256] [DecidableEq π] in
/-- A process owns the temporary file of its write. -/
theorem owns_putting {manifest : Manifest} {root : ResultRoot} {write : WritePhase}
    {temporary : Str × Str} {p : π} (hp : s.phase p = .putting manifest root write)
    (htemporary : write.temporary? = some temporary) : (s.phase p).Owns root temporary :=
  ⟨manifest, write, hp, htemporary⟩

omit [DecidableEq π] in
/-- The temporary name of a process is not that of another one. -/
theorem Consistent.temporary_ne (h : s.Consistent) {p q : π} (hne : q ≠ p) {root : ResultRoot}
    {temporary : Str × Str} (howns : (s.phase p).Owns root temporary) {manifest : Manifest}
    {write : WritePhase} (hq : s.phase q = .putting manifest root write) :
    write.temporary? ≠ some temporary := by
  intro htemporary
  exact hne (h.owned q p root temporary (owns_putting hq htemporary) howns)

omit [DecidableEq π] in
/-- An operation that changes nothing under a listed name. -/
theorem diskStep_of_read? {p : π} {root : ResultRoot} {disk : Disk (Str × Str) UInt8}
    (hvalid : disk.Valid)
    (hread : ∀ path, Listed path → disk.read? path = (s.disk root).read? path)
    (hothers : ∀ q, q ≠ p → ∀ manifest write, s.phase q = .putting manifest root write →
      write.Consistent disk (canonicalBytes manifest.document)) : s.DiskStep p root disk where
  valid := hvalid
  kept path _ hlisted hdata := (hread path hlisted).trans hdata
  new path _ hlisted hdata := .inl ((hread path hlisted).symm.trans hdata)
  others := hothers

omit [DecidableEq π] in
/-- Creating a temporary file. -/
theorem Consistent.diskStep_create (h : s.Consistent) {p : π} {root : ResultRoot}
    {temporary : Str × Str} (htemporary : isTemporaryName temporary.2 = true)
    (hfree : (s.disk root).names.contains temporary = false) :
    s.DiskStep p root ((s.disk root).create temporary) := by
  refine diskStep_of_read? ((h.valid root).create temporary) (fun path hlisted => ?_)
    fun q _ manifest write hq => ?_
  · refine (h.valid root).read?_create ?_
    rintro rfl
    exact not_listed_of_isTemporaryName htemporary hlisted
  · exact (h.phases q manifest root write hq).write.create (h.valid root) hfree

omit [DecidableEq π] in
/-- Writing to a temporary file. -/
theorem Consistent.diskStep_append (h : s.Consistent) {p : π} {root : ResultRoot}
    {temporary : Str × Str} {file : ℕ} {contents : Bytes}
    (hopen : OpenFile (s.disk root) temporary file contents)
    (howns : (s.phase p).Owns root temporary) (octets : Bytes) :
    s.DiskStep p root ((s.disk root).append file octets) := by
  refine diskStep_of_read? ((h.valid root).append file octets) (fun path hlisted => ?_)
    fun q hne manifest write hq => ?_
  · refine Disk.read?_append fun hpath => ?_
    rw [hopen.sole path hpath] at hlisted
    exact not_listed_of_isTemporaryName hopen.isTemporary hlisted
  · exact (h.phases q manifest root write hq).write.append hopen (h.temporary_ne hne howns hq)

omit [DecidableEq π] in
/-- Publishing a complete temporary file. -/
theorem Consistent.diskStep_link (h : s.Consistent) {p : π} {root : ResultRoot}
    {temporary : Str × Str} {file : ℕ} {manifest : Manifest}
    (hp : s.phase p = .putting manifest root (.linking temporary file)) :
    s.DiskStep p root ((s.disk root).link file (root.path manifest)) := by
  obtain ⟨hcalled, hfirst, -, hopen⟩ := h.phases p manifest root _ hp
  refine ⟨(h.valid root).link ((h.valid root) _ _ hopen.named) _,
    fun path data _ hdata => Disk.read?_link_of_read? hdata,
    fun path data hlisted hdata => ?_, fun q hne manifest' write hq => ?_⟩
  · rw [Disk.read?_link] at hdata
    split_ifs at hdata with hpath
    · refine .inr ⟨manifest, hcalled, hpath.1, ?_, hfirst⟩
      rw [← Option.some.inj hdata]
      exact hopen.contents
    · exact .inl hdata
  · exact (h.phases q manifest' root write hq).write.link hopen
      (h.temporary_ne hne (owns_putting hp rfl) hq) (ResultRoot.listed_path _ _)

omit [DecidableEq π] in
/-- Taking a temporary name away. -/
theorem Consistent.diskStep_unlink (h : s.Consistent) {p : π} {root : ResultRoot}
    {temporary : Str × Str} {manifest : Manifest} {raised : Bool}
    (hp : s.phase p = .putting manifest root (.unlinking temporary raised)) :
    s.DiskStep p root ((s.disk root).unlink temporary) := by
  obtain ⟨-, -, -, htemporary, -⟩ := h.phases p manifest root _ hp
  refine diskStep_of_read? ((h.valid root).unlink temporary) (fun path hlisted => ?_)
    fun q hne manifest' write hq => ?_
  · refine Disk.read?_unlink ?_
    rintro rfl
    exact not_listed_of_isTemporaryName htemporary hlisted
  · exact (h.phases q manifest' root write hq).write.unlink
      (h.temporary_ne hne (owns_putting hp rfl) hq)

/-- Whatever is listed stays as it is. -/
def Grows (s t : PublishState π) : Prop :=
  ∀ root path data, Listed path → (s.disk root).read? path = some data →
    (t.disk root).read? path = some data

/-- A step on a disk takes no document away. -/
theorem DiskStep.grows {p : π} {root : ResultRoot} {disk : Disk (Str × Str) UInt8}
    (h : s.DiskStep p root disk) (phase : PutPhase) :
    s.Grows ((s.setDisk root disk).setPhase p phase) := by
  intro root' path data hlisted hdata
  rw [disk_setPhase]
  by_cases hroot : root' = root
  · rw [hroot, disk_setDisk]
    exact h.kept path data hlisted (hroot ▸ hdata)
  · rw [disk_setDisk_of_ne hroot]
    exact hdata

omit [Sha256] [DecidableEq π] in
/-- What a process has written so far is the beginning of its data. -/
theorem take_append_take_drop (data : Bytes) (written count : ℕ) :
    data.take written ++ (data.drop written).take count =
      data.take (written + ((data.drop written).take count).length) := by
  rw [List.take_add]
  congr 1
  exact List.prefix_iff_eq_take.mp (List.take_prefix _ _)

/-- A call begins. -/
theorem Consistent.call (h : s.Consistent) {p : π} {manifest : Manifest}
    (hwf : manifest.document.WellFormed) :
    ({ s.setPhase p (.putting manifest .results .checking) with
      called := manifest :: s.called } : PublishState π).Consistent := by
  have hcalled : ({ s with called := manifest :: s.called } : PublishState π).Consistent :=
    { valid := h.valid, indexed := h.indexed, owned := h.owned
      wellFormed := List.forall_mem_cons.mpr ⟨hwf, h.wellFormed⟩
      complete := fun root path data hdata hlisted => by
        obtain ⟨m, hm, hpath⟩ := h.complete root path data hdata hlisted
        exact ⟨m, List.mem_cons_of_mem _ hm, hpath⟩
      phases := fun q m root write hq => by
        obtain ⟨hm, hfirst, hpublished, hwrite⟩ := h.phases q m root write hq
        exact ⟨List.mem_cons_of_mem _ hm, hfirst, hpublished, hwrite⟩ }
  show (PublishState.setPhase { s with called := manifest :: s.called } p
    (.putting manifest .results .checking)).Consistent
  refine hcalled.move ?_ ?_
  · rintro _ _ _ ⟨⟩
    exact ⟨List.mem_cons_self, by rintro ⟨⟩, by rintro _ ⟨⟩, trivial⟩
  · rintro _ _ ⟨_, _, ⟨⟩, ⟨⟩⟩

/-- A process creates its temporary file. -/
theorem Consistent.create (h : s.Consistent) {p : π} {manifest : Manifest} {root : ResultRoot}
    (hp : s.phase p = .putting manifest root .creating) {temporary : Str × Str}
    (htemporary : isTemporaryName temporary.2 = true)
    (hfree : (s.disk root).names.contains temporary = false) :
    ((s.setDisk root ((s.disk root).create temporary)).setPhase p
      (.putting manifest root (.writing temporary (s.disk root).files.length 0))).Consistent := by
  have hopen :
      OpenFile ((s.disk root).create temporary) temporary (s.disk root).files.length [] := by
    refine ⟨htemporary, ?_, fun name hname => ?_, Disk.contents_create_new⟩
    · rw [Disk.get?_create, if_pos rfl]
    · rw [Disk.get?_create] at hname
      by_contra hne
      rw [if_neg hne] at hname
      -- no name leads to the new file before
      exact absurd (h.valid root _ _ hname) (lt_irrefl _)
  refine h.change (h.diskStep_create htemporary hfree) ?_ ?_
  · rintro _ _ _ ⟨⟩
    exact (h.phases p manifest root _ hp).setDisk (by rintro _ ⟨⟩) hopen
  · rintro _ _ ⟨_, _, ⟨⟩, ⟨⟩⟩
    exact .inr ⟨rfl, hfree⟩

/-- A process writes to its temporary file. -/
theorem Consistent.write (h : s.Consistent) {p : π} {manifest : Manifest} {root : ResultRoot}
    {temporary : Str × Str} {file written : ℕ}
    (hp : s.phase p = .putting manifest root (.writing temporary file written)) (count : ℕ) :
    s.DiskStep p root ((s.disk root).append file
        (((canonicalBytes manifest.document).drop written).take count)) ∧
      ((s.setDisk root ((s.disk root).append file
        (((canonicalBytes manifest.document).drop written).take count))).setPhase p
        (.putting manifest root (.writing temporary file (written +
          (((canonicalBytes manifest.document).drop written).take count).length)))).Consistent := by
  have hphase := h.phases p manifest root _ hp
  have hopen : OpenFile (s.disk root) temporary file _ := hphase.write
  have hdisk := h.diskStep_append hopen (owns_putting hp rfl)
    (((canonicalBytes manifest.document).drop written).take count)
  refine ⟨hdisk, h.change hdisk ?_ ?_⟩
  · rintro _ _ _ ⟨⟩
    refine hphase.setDisk (by rintro _ ⟨⟩) ⟨hopen.isTemporary, hopen.named, hopen.sole, ?_⟩
    rw [Disk.contents_append (h.valid root _ _ hopen.named), hopen.contents]
    exact take_append_take_drop _ _ _
  · rintro _ _ ⟨_, _, ⟨⟩, ⟨⟩⟩
    exact .inl (owns_putting hp rfl)

/-- A process publishes its temporary file. -/
theorem Consistent.link (h : s.Consistent) {p : π} {manifest : Manifest} {root : ResultRoot}
    {temporary : Str × Str} {file : ℕ}
    (hp : s.phase p = .putting manifest root (.linking temporary file)) :
    ((s.setDisk root ((s.disk root).link file (root.path manifest))).setPhase p
      (.putting manifest root (.unlinking temporary false))).Consistent := by
  have hphase := h.phases p manifest root _ hp
  have hopen : OpenFile (s.disk root) temporary file _ := hphase.write
  have hcontains : ((s.disk root).link file (root.path manifest)).names.contains
      (root.path manifest) = true := by
    rw [Disk.contains_iff_read?, Disk.read?_link]
    split_ifs with hfree
    · exact ⟨_, rfl⟩
    · -- the name was taken
      refine Disk.contains_iff_read?.mp (Bool.of_not_eq_false fun hfree' => hfree ⟨rfl, hfree'⟩)
  have hne : temporary ≠ root.path manifest := by
    rintro rfl
    exact not_listed_of_isTemporaryName hopen.isTemporary (ResultRoot.listed_path _ _)
  refine h.change (h.diskStep_link hp) ?_ ?_
  · rintro _ _ _ ⟨⟩
    refine hphase.setDisk (fun _ _ => hcontains) ⟨hopen.isTemporary, ?_⟩
    rw [Disk.contains_eq_true, Disk.get?_link, if_neg fun heq => hne heq.1]
    exact ⟨file, hopen.named⟩
  · rintro _ _ ⟨_, _, ⟨⟩, ⟨⟩⟩
    exact .inl (owns_putting hp rfl)

/-- A process takes its temporary name away. -/
theorem Consistent.unlink (h : s.Consistent) {p : π} {manifest : Manifest} {root : ResultRoot}
    {temporary : Str × Str} {raised : Bool}
    (hp : s.phase p = .putting manifest root (.unlinking temporary raised)) {t : PublishState π}
    (ht : (if raised then (s.setDisk root ((s.disk root).unlink temporary)).setPhase p .idle
      else (s.setDisk root ((s.disk root).unlink temporary)).finish p manifest root) = t) :
    t.Consistent ∧ s.Grows t := by
  have hdisk := h.diskStep_unlink hp
  have hidle : ((s.setDisk root ((s.disk root).unlink temporary)).setPhase p .idle).Consistent ∧
      s.Grows ((s.setDisk root ((s.disk root).unlink temporary)).setPhase p .idle) := by
    refine ⟨h.change hdisk ?_ ?_, hdisk.grows _⟩
    · rintro _ _ _ ⟨⟩
    · rintro _ _ ⟨_, _, ⟨⟩, -⟩
  subst ht
  cases raised with
  | true => exact hidle
  | false =>
    cases root with
    | actions => exact hidle
    | results =>
      have hphase := h.phases p manifest _ _ hp
      refine ⟨h.change hdisk ?_ ?_, hdisk.grows _⟩
      · rintro _ _ _ ⟨⟩
        refine ⟨hphase.called, fun _ => ?_, by rintro _ ⟨⟩, trivial⟩
        obtain ⟨data, hdata⟩ := Disk.contains_iff_read?.mp (hphase.published temporary rfl)
        rw [disk_setDisk]
        exact Disk.contains_of_read? (hdisk.kept _ data (ResultRoot.listed_path _ _) hdata)
      · rintro _ _ ⟨_, _, ⟨⟩, ⟨⟩⟩

/-- A process whose system call fails goes on to take its temporary name away. -/
theorem Consistent.fail (h : s.Consistent) {p : π} {manifest : Manifest} {root : ResultRoot}
    {write : WritePhase} (hp : s.phase p = .putting manifest root write) {temporary : Str × Str}
    (htemporary : write.temporary? = some temporary) :
    (s.setPhase p (.putting manifest root (.unlinking temporary true))).Consistent := by
  have hphase := h.phases p manifest root write hp
  refine h.move ?_ ?_
  · rintro _ _ _ ⟨⟩
    exact ⟨hphase.called, hphase.first, by rintro _ ⟨⟩, hphase.write.contains htemporary⟩
  · rintro _ _ ⟨_, _, ⟨⟩, ⟨⟩⟩
    exact owns_putting hp htemporary

omit [Sha256] in
/-- A process that finishes a write leaves the disks as they are. -/
theorem disk_finish (p : π) (manifest : Manifest) (root : ResultRoot) :
    (s.finish p manifest root).disk = s.disk := by
  cases root <;> rfl

/-- A step keeps the invariant, and whatever is listed. -/
theorem Consistent.step (h : s.Consistent) {e : PutEvent π} {t : PublishState π}
    (hstep : publishStep s e = some t) : t.Consistent ∧ s.Grows t := by
  have hrefl : s.Grows s := fun _ _ _ _ hdata => hdata
  cases e with
  | call p document =>
    simp only [publishStep] at hstep
    split at hstep
    next manifest hidle hvalid =>
      cases hstep
      refine ⟨h.call ?_, hrefl⟩
      rw [Manifest.ofValue_eq_ok.mp hvalid]
      exact document.wellFormed
    · cases hstep
      exact ⟨h, hrefl⟩
    · cases hstep
  | check p =>
    simp only [publishStep] at hstep
    split at hstep
    next manifest root hp =>
      have hphase := h.phases p manifest root _ hp
      split_ifs at hstep with hcontains
      · cases hstep
        refine ⟨h.finish hphase.called hcontains, fun root' path data _ hdata => ?_⟩
        rw [disk_finish]
        exact hdata
      · cases hstep
        refine ⟨h.move ?_ ?_, hrefl⟩
        · rintro _ _ _ ⟨⟩
          exact ⟨hphase.called, hphase.first, by rintro _ ⟨⟩, trivial⟩
        · rintro _ _ ⟨_, _, ⟨⟩, ⟨⟩⟩
    · cases hstep
  | create p name =>
    simp only [publishStep] at hstep
    split at hstep
    next manifest root hp =>
      have hphase := h.phases p manifest root _ hp
      split_ifs at hstep with hname
      cases hstep
      exact ⟨h.create hp hname.1 hname.2, (h.diskStep_create hname.1 hname.2).grows _⟩
    · cases hstep
  | write p count =>
    simp only [publishStep] at hstep
    split at hstep
    next manifest root temporary file written hp =>
      cases hstep
      obtain ⟨hdisk, hnext⟩ := h.write hp count
      exact ⟨hnext, hdisk.grows _⟩
    · cases hstep
  | sync p =>
    simp only [publishStep] at hstep
    split at hstep
    next manifest root temporary file written hp =>
      have hphase := h.phases p manifest root _ hp
      split_ifs at hstep with hwritten
      cases hstep
      refine ⟨h.move ?_ ?_, hrefl⟩
      · rintro _ _ _ ⟨⟩
        have hopen : OpenFile (s.disk root) temporary file _ := hphase.write
        rw [hwritten, List.take_length] at hopen
        exact ⟨hphase.called, hphase.first, by rintro _ ⟨⟩, hopen⟩
      · rintro _ _ ⟨_, _, ⟨⟩, ⟨⟩⟩
        exact owns_putting hp rfl
    · cases hstep
  | link p =>
    simp only [publishStep] at hstep
    split at hstep
    next manifest root temporary file hp =>
      cases hstep
      exact ⟨h.link hp, (h.diskStep_link hp).grows _⟩
    · cases hstep
  | unlink p =>
    simp only [publishStep] at hstep
    split at hstep
    next manifest root temporary raised hp => exact h.unlink hp (Option.some.inj hstep)
    · cases hstep
  | fail p =>
    simp only [publishStep] at hstep
    split at hstep
    next manifest root temporary file written hp =>
      cases hstep
      exact ⟨h.fail hp rfl, hrefl⟩
    next manifest root temporary file hp =>
      cases hstep
      exact ⟨h.fail hp rfl, hrefl⟩
    · cases hstep
      exact ⟨h.setPhase_idle p, hrefl⟩
    · cases hstep
  | crash p =>
    cases hstep
    exact ⟨h.setPhase_idle p, hrefl⟩

/-- The invariant holds in every state of every run. -/
theorem consistent_run {events : List (PutEvent π)} (hrun : (publishSystem π).run events = some s) :
    s.Consistent := by
  refine TransitionSystem.run_induction (P := Consistent) ?_
    (fun s e t hs hstep => (hs.step hstep).1) hrun
  refine
    { valid := fun _ => Disk.valid_empty
      wellFormed := fun _ hmanifest => nomatch hmanifest
      complete := fun _ _ _ hdata => nomatch hdata
      indexed := fun _ hcontains => nomatch hcontains
      phases := fun _ _ _ _ hp => nomatch hp
      owned := ?_ }
  rintro p q root temporary ⟨_, _, ⟨⟩, -⟩

/-- What is listed stays as it is for the rest of a run. -/
theorem Consistent.grows_run (h : s.Consistent) {events : List (PutEvent π)} {t : PublishState π}
    (hrun : (publishSystem π).runFrom s events = some t) : t.Consistent ∧ s.Grows t := by
  refine TransitionSystem.runFrom_induction (P := fun t => t.Consistent ∧ s.Grows t)
    (fun u e t hu hstep => ?_) ⟨h, fun _ _ _ _ hdata => hdata⟩ hrun
  obtain ⟨ht, hgrows⟩ := hu.1.step hstep
  exact ⟨ht, fun root path data hlisted hdata =>
    hgrows root path data hlisted (hu.2 root path data hlisted hdata)⟩

/-! ### What the readers find -/

omit [DecidableEq π] in
/-- The file of a manifest that has been put can be read again. -/
theorem Consistent.exists_holds (h : s.Consistent) {manifest : Manifest}
    (hcalled : manifest ∈ s.called) :
    ∃ found, Holds Manifest.ofValue (canonicalBytes manifest.document) found ∧
      found.digest = manifest.digest := by
  have hstorable : Storable manifest.document :=
    ⟨(validateManifest_checks manifest.valid).inProfile, h.wellFormed manifest hcalled⟩
  obtain ⟨found, hholds, -, hdigest⟩ := FilesystemStore.exists_holds_manifest hstorable
  exact ⟨found, hholds, hdigest⟩

omit [DecidableEq π] in
/-- What the files of an action hold. -/
theorem Consistent.exists_of_mem_filesIn (h : s.Consistent) {name directory : Str} {data : Bytes}
    (hdata : data ∈ filesIn (s.store name).actions directory) :
    ∃ manifest ∈ s.called, data = canonicalBytes manifest.document ∧
      (s.disk .actions).read? (ResultRoot.path manifest .actions) = some data := by
  obtain ⟨⟨path, data'⟩, hmem, rfl⟩ := List.mem_map.mp hdata
  obtain ⟨hentry, hname⟩ := List.mem_filter.mp hmem
  have hread : (s.disk .actions).read? path = some data' := by
    rw [← Disk.get?_snapshot]
    exact Dict.mem_entries_iff.mp hentry
  obtain ⟨manifest, hcalled, rfl, hcontents⟩ :=
    h.complete .actions path data' hread (Bool.and_eq_true_iff.mp hname).2
  exact ⟨manifest, hcalled, hcontents, hread⟩

omit [DecidableEq π] in
/-- The candidates of an action can be read. -/
theorem Consistent.exists_candidates (h : s.Consistent) (name : Str) (listing : Listing)
    {digest : Str} (hdigest : isDigest digest = true) :
    ∃ manifests, (s.store name).candidates listing digest = .ok manifests ∧
      ∀ found ∈ manifests, ∃ manifest ∈ s.called,
        Holds Manifest.ofValue (canonicalBytes manifest.document) found ∧
        found.digest = manifest.digest ∧
        (s.disk .actions).read? (ResultRoot.path manifest .actions) =
          some (canonicalBytes manifest.document) := by
  have hfiles : ∀ data ∈ listing.list (filesIn (s.store name).actions (digestHex digest)),
      ∃ found, Holds Manifest.ofValue data found ∧ ∃ manifest ∈ s.called,
        Holds Manifest.ofValue (canonicalBytes manifest.document) found ∧
        found.digest = manifest.digest ∧
        (s.disk .actions).read? (ResultRoot.path manifest .actions) =
          some (canonicalBytes manifest.document) := by
    intro data hdata
    obtain ⟨manifest, hcalled, rfl, hread⟩ :=
      h.exists_of_mem_filesIn ((listing.perm _).mem_iff.mp hdata)
    obtain ⟨found, hholds, hfound⟩ := h.exists_holds hcalled
    exact ⟨found, hholds, manifest, hcalled, hholds, hfound, hread⟩
  obtain ⟨manifests, hmanifests⟩ := exists_forall₂_iff.mpr hfiles
  have hread := readDocuments_eq_ok.mpr (hmanifests.imp fun _ _ h => h.1)
  refine ⟨newestTextFirst (fun manifest => manifest.fields.producedAt.text) manifests, ?_, ?_⟩
  · rw [FilesystemStore.candidates, hexDigest?_of_isDigest hdigest, Except.ok_bind]
    exact Except.bind_eq_ok.mpr ⟨manifests, guardRead_eq_ok.mpr hread, rfl⟩
  · intro found hfound
    obtain ⟨_, -, -, hmanifest⟩ := exists_of_forall₂_right hmanifests
      ((perm_newestTextFirst _ manifests).mem_iff.mp hfound)
    exact hmanifest

omit [DecidableEq π] in
/-- A manifest that is under its digest is found there, or another one with the same digest. -/
theorem Consistent.exists_result (h : s.Consistent) (name : Str) {manifest : Manifest}
    (hcontains : (s.disk .results).names.contains (ResultRoot.path manifest .results) = true) :
    ∃ found, (s.store name).result manifest.digest = .ok (some found) ∧
      found.digest = manifest.digest ∧ ∃ manifest' ∈ s.called,
        Holds Manifest.ofValue (canonicalBytes manifest'.document) found ∧
        manifest'.digest = manifest.digest := by
  obtain ⟨data, hdata⟩ := Disk.contains_iff_read?.mp hcontains
  obtain ⟨manifest', hcalled, hpath, rfl⟩ :=
    h.complete .results _ data hdata (ResultRoot.listed_path _ _)
  have hsame : manifest'.digest = manifest.digest :=
    ((fanOut_inj (isDigest_digestBytes _) (isDigest_digestBytes _)).mp hpath).symm
  obtain ⟨found, hholds, hfound⟩ := h.exists_holds hcalled
  refine ⟨found, ?_, hfound.trans hsame, manifest', hcalled, hholds, hsame⟩
  obtain ⟨value, hload, hvalid⟩ := hholds
  have hget : (s.store name).results.get? (fanOut manifest.digest ".json") =
      some (canonicalBytes manifest'.document) := (Disk.get?_snapshot _).trans hdata
  have hchecked : (do
      let value ← File.loadJson (some (canonicalBytes manifest'.document))
      let found ← Manifest.ofValue value
      raiseIf (found.digest ≠ manifest.digest) "result is indexed under the wrong digest"
      pure found) = .ok found := by
    rw [hload, Except.ok_bind, hvalid, Except.ok_bind, Except.check_eq_ok, raiseIf_eq_ok]
    exact ⟨by simp [hfound.trans hsame], rfl⟩
  have hdigest : isDigest manifest.digest = true := isDigest_digestBytes _
  rw [FilesystemStore.result, hexDigest?_of_isDigest hdigest, Except.ok_bind, hget]
  show some <$> guardRead "result_read_failed" _ = _
  rw [hchecked]
  rfl

end PublishState

/-- In every state of every interleaving of calls of `put_result`, with failing system calls and
processes that die, the candidates of an action can be read, and each of them is found under its own
digest, then and later. What is listed is a complete manifest, and stays as it is. -/
theorem digest_index_first {events : List (PutEvent π)} {s : PublishState π}
    (hrun : (publishSystem π).run events = some s) :
    (∀ (name : Str) (listing : Listing) (digest : Str), isDigest digest = true →
      ∃ manifests, (s.store name).candidates listing digest = .ok manifests ∧
        ∀ manifest ∈ manifests, ∀ (later : List (PutEvent π)) (t : PublishState π),
          (publishSystem π).runFrom s later = some t →
          ∃ found, (t.store name).result manifest.digest = .ok (some found) ∧
            found.digest = manifest.digest ∧
            (Set.InjOn Sha256.hash {data | ∃ m ∈ t.called, data = canonicalBytes m.document} →
              found = manifest)) ∧
    (∀ root path data, (s.disk root).read? path = some data → Listed path →
      ∃ manifest ∈ s.called, path = root.path manifest ∧
        data = canonicalBytes manifest.document) ∧
    ∀ (later : List (PutEvent π)) (t : PublishState π),
      (publishSystem π).runFrom s later = some t → s.Grows t := by
  have hconsistent := PublishState.consistent_run hrun
  refine ⟨fun name listing digest hdigest => ?_, hconsistent.complete,
    fun later t hlater => (hconsistent.grows_run hlater).2⟩
  obtain ⟨manifests, hmanifests, hall⟩ := hconsistent.exists_candidates name listing hdigest
  refine ⟨manifests, hmanifests, fun manifest hmem later t hlater => ?_⟩
  obtain ⟨put, -, hholds, hsame, hread⟩ := hall manifest hmem
  obtain ⟨ht, hgrows⟩ := hconsistent.grows_run hlater
  -- what is under its digest now is there later
  have hindexed := hconsistent.indexed put (Disk.contains_of_read? hread)
  obtain ⟨data, hdata⟩ := Disk.contains_iff_read?.mp hindexed
  have hkept := Disk.contains_of_read? (hgrows _ _ _ (ResultRoot.listed_path _ _) hdata)
  obtain ⟨found, hfound, hdigest', put', hput', hholds', hsame'⟩ := ht.exists_result name hkept
  rw [hsame]
  refine ⟨found, hfound, hdigest', fun hfree => ?_⟩
  -- without a collision both files have the same contents
  have hlisted := ResultRoot.listed_path put .actions
  obtain ⟨put'', hput'', -, hbytes⟩ := ht.complete _ _ _ (hgrows _ _ _ hlisted hread) hlisted
  have hcontents : canonicalBytes put'.document = canonicalBytes put.document :=
    hfree ⟨put', hput', rfl⟩ ⟨put'', hput'', hbytes⟩ (digestBytes_inj.mp hsame')
  rw [hcontents] at hholds'
  exact hholds'.unique hholds

end

end

/-! ### A process that dies -/

/-- The digest of an action. -/
def exampleRequested : Str := lit "sha256:" ++ List.replicate 64 (digit 0)

/-- A result without artifacts. -/
def examplePut : Object where
  value := .dict [(lit "spec_version", .str (lit "oncemesh.result/v0")),
    (lit "action_digest", .str exampleRequested), (lit "artifacts", .list []),
    (lit "produced_at", .str (lit "2026-01-01T00:00:00Z")), (lit "fresh_until", .none),
    (lit "producer", .str (lit "p"))]
  wellFormed := by simp [Value.WellFormed, Value.WellFormedItems, Value.WellFormedList]

/-- Two processes put the same result. The first dies once it is under its digest; the second finds
it there and goes on. -/
def examplePutEvents : List (PutEvent Bool) :=
  [.call false examplePut, .check false, .call true examplePut,
    .create false (lit ".oncemesh-aaaaaaaa"), .write false 100, .write false 1000, .sync false,
    .link false, .check true, .crash false, .check true, .create true (lit ".oncemesh-bbbbbbbb"),
    .write true 1000, .sync true, .link true]

/-- The events of the example can happen. -/
theorem isSome_run_examplePutEvents :
    ((@publishSystem Sha256.standard Bool _).run examplePutEvents).isSome = true := by
  decide +kernel

/-- After them, the result is the one candidate of its action. -/
theorem candidates_examplePutEvents :
    ((@publishSystem Sha256.standard Bool _).run examplePutEvents).all (fun s =>
      ((s.store []).candidates ⟨id, fun _ => .rfl⟩ exampleRequested).toOption.all fun manifests =>
        manifests.length = 1) = true := by
  decide +kernel

/-- The result is a candidate, and is found under its digest. -/
theorem digest_index_first_example : ∃ s manifest found,
    (@publishSystem Sha256.standard Bool _).run examplePutEvents = some s ∧
      (s.store []).candidates ⟨id, fun _ => .rfl⟩ exampleRequested = .ok [manifest] ∧
      @FilesystemStore.result Sha256.standard (s.store [])
        (@Manifest.digest Sha256.standard manifest) = .ok (some found) ∧
      @Manifest.digest Sha256.standard found = @Manifest.digest Sha256.standard manifest := by
  obtain ⟨s, hs⟩ := Option.isSome_iff_exists.mp isSome_run_examplePutEvents
  have hdigest : isDigest exampleRequested = true := by decide
  obtain ⟨manifests, hmanifests, hall⟩ := (@digest_index_first Sha256.standard Bool _ _ s hs).1 []
    ⟨id, fun _ => .rfl⟩ exampleRequested hdigest
  have hlength := candidates_examplePutEvents
  rw [hs, Option.all_some, hmanifests] at hlength
  obtain ⟨manifest, rfl⟩ := List.length_eq_one_iff.mp (of_decide_eq_true hlength)
  obtain ⟨found, hfound, hsame, -⟩ := hall manifest (List.mem_singleton_self _) [] s rfl
  exact ⟨s, manifest, found, hs, hmanifests, hfound, hsame⟩

end OnceMesh
