import OnceMesh.Python.Dict

/-!
# A disk with hard links

A disk has files, which are numbered, and names for them. Several names may be links to one file,
and a file that loses its last name is out of reach. `read?` is what a reader sees under a name;
each operation says which names it leaves as they are.
-/

/-- The contents of the files, by number, and the files by name. -/
structure Disk (κ α : Type) where
  files : List (List α)
  names : Python.Dict κ ℕ

namespace Disk

variable {κ α : Type} [DecidableEq κ]

/-- A disk without files. -/
def empty : Disk κ α := ⟨[], .empty⟩

variable (disk : Disk κ α)

/-- The contents of a file. -/
def contents (file : ℕ) : List α := disk.files.getD file []

/-- What a reader finds under a name. -/
def read? (name : κ) : Option (List α) := (disk.names.get? name).map disk.contents

/-- What every name leads to. -/
def snapshot : Python.Dict κ (List α) := disk.names.mapValues fun _ file => disk.contents file

/-- A new file that is empty. -/
def create (name : κ) : Disk κ α :=
  ⟨disk.files ++ [[]], disk.names.set name disk.files.length⟩

/-- Write to the end of a file. -/
def append (file : ℕ) (data : List α) : Disk κ α :=
  { disk with files := disk.files.modify file (· ++ data) }

/-- Another name for a file, unless the name is taken. -/
def link (file : ℕ) (name : κ) : Disk κ α :=
  if disk.names.contains name then disk else { disk with names := disk.names.set name file }

/-- Take a name away. -/
def unlink (name : κ) : Disk κ α :=
  { disk with names := disk.names.filter fun name' _ => name' ≠ name }

/-- Every name leads to a file. -/
def Valid : Prop := ∀ name file, disk.names.get? name = some file → file < disk.files.length

variable {disk} {name name' : κ} {file file' : ℕ} {data : List α}

/-- A snapshot has under a name what a reader sees there. -/
@[simp]
theorem get?_snapshot (name : κ) : disk.snapshot.get? name = disk.read? name :=
  Python.Dict.get?_mapValues _ _ _

/-- A name that is taken leads to a file. -/
theorem contains_eq_true :
    disk.names.contains name = true ↔ ∃ file, disk.names.get? name = some file :=
  Option.isSome_iff_exists

/-- A reader sees the contents of the file that the name leads to. -/
theorem read?_eq_some :
    disk.read? name = some data ↔
      ∃ file, disk.names.get? name = some file ∧ disk.contents file = data :=
  Option.map_eq_some_iff

/-- What can be read has a name that is taken. -/
theorem contains_of_read? (h : disk.read? name = some data) : disk.names.contains name = true := by
  obtain ⟨file, hfile, -⟩ := read?_eq_some.mp h
  exact contains_eq_true.mpr ⟨file, hfile⟩

/-- A name is taken just if something can be read under it. -/
theorem contains_iff_read? :
    disk.names.contains name = true ↔ ∃ data, disk.read? name = some data := by
  refine ⟨fun h => ?_, fun ⟨data, hdata⟩ => contains_of_read? hdata⟩
  obtain ⟨file, hfile⟩ := contains_eq_true.mp h
  exact ⟨_, read?_eq_some.mpr ⟨file, hfile, rfl⟩⟩

/-! ### Names -/

/-- A created file is a new one, and its name leads to it. -/
@[simp]
theorem get?_create : (disk.create name).names.get? name' =
    if name' = name then some disk.files.length else disk.names.get? name' :=
  Python.Dict.get?_set _ _ _ _

omit [DecidableEq κ] in
/-- Writing to a file leaves the names as they are. -/
@[simp]
theorem names_append : (disk.append file data).names = disk.names := rfl

/-- A link leads to the file if the name was free. -/
theorem get?_link : (disk.link file name).names.get? name' =
    if name' = name ∧ disk.names.contains name = false then some file
    else disk.names.get? name' := by
  unfold link
  cases hcontains : disk.names.contains name with
  | true => simp
  | false => simp

/-- After a name has been taken away, the others lead where they did. -/
theorem get?_unlink_eq_some :
    (disk.unlink name).names.get? name' = some file ↔
      disk.names.get? name' = some file ∧ name' ≠ name := by
  rw [unlink, Python.Dict.get?_filter_eq_some, decide_eq_true_eq]

/-! ### Contents -/

/-- Creating a file leaves the contents of the others as they are. -/
theorem contents_create (h : file < disk.files.length) :
    (disk.create name).contents file = disk.contents file := by
  simp [contents, create, List.getD_eq_getElem?_getD, List.getElem?_append_left h]

/-- A created file is empty. -/
@[simp]
theorem contents_create_new : (disk.create name).contents disk.files.length = [] := by
  simp [contents, create]

omit [DecidableEq κ] in
/-- What is written to a file comes after what it held. -/
theorem contents_append (h : file < disk.files.length) :
    (disk.append file data).contents file = disk.contents file ++ data := by
  simp [contents, append, List.getD_eq_getElem?_getD, h]

omit [DecidableEq κ] in
/-- Writing to a file leaves the contents of the others as they are. -/
theorem contents_append_of_ne (h : file' ≠ file) :
    (disk.append file data).contents file' = disk.contents file' := by
  simp [contents, append, List.getD_eq_getElem?_getD, h.symm]

/-- A link leaves all contents as they are. -/
@[simp]
theorem contents_link : (disk.link file name).contents file' = disk.contents file' := by
  unfold link
  split_ifs <;> rfl

/-- Taking a name away leaves all contents as they are. -/
@[simp]
theorem contents_unlink : (disk.unlink name).contents file = disk.contents file := rfl

/-! ### What each operation leaves as it is -/

/-- On an empty disk, no name leads anywhere. -/
theorem valid_empty : (empty : Disk κ α).Valid := by
  rintro name file ⟨⟩

/-- After a file has been created, every name leads to a file. -/
theorem Valid.create (h : disk.Valid) (name : κ) : (disk.create name).Valid := by
  intro name' file hfile
  rw [get?_create] at hfile
  have hlength : (disk.create name).files.length = disk.files.length + 1 := List.length_append
  split_ifs at hfile with hname
  · cases hfile
    omega
  · have := h _ _ hfile
    omega

/-- After a file has been written to, every name leads to a file. -/
theorem Valid.append (h : disk.Valid) (file : ℕ) (data : List α) :
    (disk.append file data).Valid := by
  intro name file' hfile
  show file' < (disk.files.modify file (· ++ data)).length
  rw [List.length_modify]
  exact h _ _ hfile

/-- After a link to a file has been made, every name leads to a file. -/
theorem Valid.link (h : disk.Valid) (hfile : file < disk.files.length) (name : κ) :
    (disk.link file name).Valid := by
  intro name' file' hlinked
  have hfiles : (disk.link file name).files = disk.files := by
    unfold Disk.link
    split_ifs <;> rfl
  rw [hfiles]
  rw [get?_link] at hlinked
  split_ifs at hlinked with hname
  · cases hlinked
    exact hfile
  · exact h _ _ hlinked

/-- After a name has been taken away, every name leads to a file. -/
theorem Valid.unlink (h : disk.Valid) (name : κ) : (disk.unlink name).Valid :=
  fun _ _ hfile => h _ _ (get?_unlink_eq_some.mp hfile).1

/-- Creating a file leaves the other names as they are. -/
theorem Valid.read?_create (h : disk.Valid) (hne : name' ≠ name) :
    (disk.create name).read? name' = disk.read? name' := by
  rw [read?, read?, get?_create, if_neg hne]
  cases hfile : disk.names.get? name' with
  | none => rfl
  | some file => exact congrArg some (contents_create (h _ _ hfile))

/-- Writing to a file leaves the names of other files as they are. -/
theorem read?_append (hne : disk.names.get? name ≠ some file) :
    (disk.append file data).read? name = disk.read? name := by
  rw [read?, read?, names_append]
  cases hfile : disk.names.get? name with
  | none => rfl
  | some file' =>
    refine congrArg some (contents_append_of_ne ?_)
    rintro rfl
    exact hne hfile

/-- A link to a file is a new name for its contents, if the name is free. -/
theorem read?_link : (disk.link file name).read? name' =
    if name' = name ∧ disk.names.contains name = false then some (disk.contents file)
    else disk.read? name' := by
  have hcontents : (disk.link file name).contents = disk.contents := funext fun _ => contents_link
  rw [read?, read?, get?_link, hcontents]
  split_ifs <;> rfl

/-- Taking a name away leaves the other names as they are. -/
theorem read?_unlink (hne : name' ≠ name) : (disk.unlink name).read? name' = disk.read? name' := by
  apply Option.ext
  intro data
  simp only [read?_eq_some, get?_unlink_eq_some, contents_unlink, hne, ne_eq, not_false_eq_true,
    and_true]

/-- A link leaves every name that is taken as it is. -/
theorem read?_link_of_read? (h : disk.read? name' = some data) :
    (disk.link file name).read? name' = some data := by
  rw [read?_link, if_neg, h]
  rintro ⟨rfl, hfree⟩
  rw [contains_of_read? h] at hfree
  cases hfree

end Disk
